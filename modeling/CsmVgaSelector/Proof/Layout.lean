import CsmVgaSelector.Proof.Says
import CsmVgaSelector.Proof.EditLines

/-!
# The layout of a text

Sections and lines in another order, other comments, blank lines, spaces and carriage returns
(`Relayout`) say the same headers and settings in another order, and the configuration does not depend on
the order. A text is taken here as its lines without their line feeds.
-/

namespace CsmVgaSelector

variable {line line' text : Bytes} {lines lines' : List Bytes} {reading reading' : Reading}
  {current current' : Option NcvConfigSection} {headers headers' : List NcvConfigSection}
  {entries entries' : List Entry}

/-- The line begins a section, or tries to. -/
def IsHeaderLine (line : Bytes) : Prop := (seenText line).head? = some (byte '[')

instance (line : Bytes) : Decidable (IsHeaderLine line) :=
  inferInstanceAs (Decidable (_ = _))

/-- The header of a section and the lines up to the next one. -/
def IsSectionBlock (block : List Bytes) : Prop :=
  ∃ line body, block = line :: body ∧ IsHeaderLine line ∧ ∀ other ∈ body, ¬ IsHeaderLine other

def spaces (count : Nat) : Bytes := List.replicate count (byte ' ')

/-- The same text in another layout. -/
inductive Relayout : List Bytes → List Bytes → Prop where
  | refl (lines : List Bytes) : Relayout lines lines
  | trans {lines lines' lines'' : List Bytes} (h : Relayout lines lines')
      (h' : Relayout lines' lines'') : Relayout lines lines''
  | returns (before after : List Bytes) (line line' : Bytes)
      (h : line'.filter (· != carriageReturn) = line.filter (· != carriageReturn)) :
      Relayout (before ++ line :: after) (before ++ line' :: after)
  | add (before after : List Bytes) (line : Bytes) (hline : isActiveLine (seenText line) = false)
      (hok : LineOk line) (hfeed : lineFeed ∉ line) :
      Relayout (before ++ after) (before ++ line :: after)
  | remove (before after : List Bytes) (line : Bytes)
      (hline : isActiveLine (seenText line) = false) :
      Relayout (before ++ line :: after) (before ++ after)
  | headerSpaces (before after : List Bytes) (text : Bytes) (left right left' right' : Nat)
      (hok : LineOk (spaces left' ++ text ++ spaces right')) :
      Relayout (before ++ (spaces left ++ text ++ spaces right) :: after)
        (before ++ (spaces left' ++ text ++ spaces right') :: after)
  | keySpaces (before after : List Bytes) (key value : Bytes)
      (left right middle last left' right' middle' last' : Nat)
      (hok : LineOk (keyLine (spaces left' ++ key ++ spaces right')
        (spaces middle' ++ value ++ spaces last'))) :
      Relayout
        (before ++ keyLine (spaces left ++ key ++ spaces right)
          (spaces middle ++ value ++ spaces last) :: after)
        (before ++ keyLine (spaces left' ++ key ++ spaces right')
          (spaces middle' ++ value ++ spaces last') :: after)
  | keys (before after body body' : List Bytes) (hbody : ∀ line ∈ body, ¬ IsHeaderLine line)
      (h : body'.Perm body) : Relayout (before ++ body ++ after) (before ++ body' ++ after)
  | sections (before : List Bytes) (blocks blocks' : List (List Bytes))
      (hblocks : ∀ block ∈ blocks, IsSectionBlock block) (h : blocks'.Perm blocks) :
      Relayout (before ++ blocks.flatten) (before ++ blocks'.flatten)

/-! ### Lines that say the same -/

/-- What one line says, the other says. -/
def SameLine (line line' : Bytes) : Prop :=
  LineOk line' ∧ ∀ item, SaysItem (seenText line) item → SaysItem (seenText line') item

theorem Says.replace (hsame : LineOk line → SameLine line line')
    (h : Says current (line :: lines) headers entries) :
    Says current (line' :: lines) headers entries := by
  cases h with
  | skip hok hline h =>
      obtain ⟨hok', hitem⟩ := hsame hok
      exact .skip hok' (hitem _ hline) h
  | header header hok hline h =>
      obtain ⟨hok', hitem⟩ := hsame hok
      exact .header header hok' (hitem _ hline) h
  | setting setting value hok hline h =>
      obtain ⟨hok', hitem⟩ := hsame hok
      exact .setting setting value hok' (hitem _ hline) h

theorem sameLine_of_seenText (hok : LineOk line') (h : seenText line' = seenText line) :
    SameLine line line' := ⟨hok, fun _ hitem => h ▸ hitem⟩

/-- A line in the middle may be replaced by one that says the same. -/
theorem Says.replace_middle {before after : List Bytes} (hsame : LineOk line → SameLine line line')
    (h : Says current (before ++ line :: after) headers entries) :
    Says current (before ++ line' :: after) headers entries := by
  obtain ⟨_, _, _, _, h₁, h₂, rfl, rfl⟩ := Says.append_iff.mp h
  exact Says.append_iff.mpr ⟨_, _, _, _, h₁, h₂.replace hsame, rfl, rfl⟩

theorem filter_takeWhile_return (h : line'.filter (· != carriageReturn) =
    line.filter (· != carriageReturn)) : lineText line' = lineText line := by
  have hcommute : ∀ text : Bytes, lineText text =
      (text.filter (· != carriageReturn)).takeWhile (· != lineFeed) := by
    intro text
    rw [lineText]
    induction text with
    | nil => rfl
    | cons character text ih =>
        by_cases hfeed : character = lineFeed
        · subst hfeed
          rw [List.takeWhile_cons_of_neg (by simp), List.filter_cons_of_pos (by decide),
            List.takeWhile_cons_of_neg (by simp)]
          rfl
        · by_cases hreturn : character = carriageReturn
          · subst hreturn
            rw [List.takeWhile_cons_of_pos (by decide), List.filter_cons_of_neg (by simp),
              List.filter_cons_of_neg (by simp), ih]
          · rw [List.takeWhile_cons_of_pos (by simpa using hfeed),
              List.filter_cons_of_pos (by simpa using hreturn),
              List.filter_cons_of_pos (by simpa using hreturn),
              List.takeWhile_cons_of_pos (by simpa using hfeed), ih]
  rw [hcommute, hcommute, h]

theorem sameLine_of_returns (h : line'.filter (· != carriageReturn) =
    line.filter (· != carriageReturn)) (hok : LineOk line) : SameLine line line' := by
  have htext := filter_takeWhile_return h
  apply sameLine_of_seenText
  · rwa [LineOk, htext]
  · rw [seenText, seenText, htext]

/-! ### Spaces -/

theorem dropWhile_spaces {count : Nat} :
    (spaces count ++ text).dropWhile isSpace = text.dropWhile isSpace := by
  rw [List.dropWhile_append_of_pos]
  intro character hcharacter
  rw [List.eq_of_mem_replicate hcharacter]
  decide

theorem rdropWhile_spaces {count : Nat} :
    (text ++ spaces count).rdropWhile isSpace = text.rdropWhile isSpace := by
  have hreverse : (spaces count).reverse = spaces count := List.reverse_replicate
  rw [List.rdropWhile, List.rdropWhile, List.reverse_append, hreverse, dropWhile_spaces]

theorem dropWhile_append_spaces {count : Nat} :
    ((text ++ spaces count).dropWhile isSpace).rdropWhile isSpace =
      (text.dropWhile isSpace).rdropWhile isSpace := by
  by_cases hblank : ∀ character ∈ text, isSpace character = true
  · rw [List.dropWhile_append_of_pos hblank]
    have hspaces : (spaces count).dropWhile isSpace = [] := by
      rw [List.dropWhile_eq_nil_iff]
      intro character hcharacter
      rw [List.eq_of_mem_replicate hcharacter]
      decide
    rw [hspaces, List.dropWhile_eq_nil_iff.mpr hblank]
  · have hne : text.dropWhile isSpace ≠ [] := fun hnil =>
      hblank (List.dropWhile_eq_nil_iff.mp hnil)
    rw [List.dropWhile_append, if_neg (by simpa using hne), rdropWhile_spaces]

/-- Trimming takes spaces away. -/
theorem trim_spaces {left right : Nat} : trim (spaces left ++ text ++ spaces right) = trim text := by
  rw [trim, List.append_assoc, dropWhile_spaces, dropWhile_append_spaces, trim]

theorem trim_spaces_left {count : Nat} : trim (spaces count ++ text) = trim text := by
  rw [trim, dropWhile_spaces, trim]

theorem trim_spaces_right {count : Nat} : trim (text ++ spaces count) = trim text :=
  dropWhile_append_spaces

theorem filter_spaces {count : Nat} :
    (spaces count).filter (· != carriageReturn) = spaces count := by
  rw [List.filter_eq_self]
  intro character hcharacter
  rw [List.eq_of_mem_replicate hcharacter]
  decide

theorem notMem_spaces {count : Nat} {character : UInt8} (h : character ≠ byte ' ') :
    character ∉ spaces count := fun hmem => h (List.eq_of_mem_replicate hmem)

theorem sameLine_of_headerSpaces {left right left' right' : Nat}
    (hfeed : lineFeed ∉ text) (hok : LineOk (spaces left' ++ text ++ spaces right')) :
    SameLine (spaces left ++ text ++ spaces right) (spaces left' ++ text ++ spaces right') := by
  have hseen : ∀ left right, seenText (spaces left ++ text ++ spaces right) =
      trim (text.filter (· != carriageReturn)) := by
    intro left right
    have hline : lineFeed ∉ spaces left ++ text ++ spaces right := by
      simp only [List.mem_append, not_or]
      exact ⟨⟨notMem_spaces (by decide), hfeed⟩, notMem_spaces (by decide)⟩
    rw [seenText, lineText_of_notMem hline, List.filter_append, List.filter_append, filter_spaces,
      filter_spaces, trim_spaces]
  exact sameLine_of_seenText hok (by rw [hseen, hseen])

/-! ### Spaces around keys and values -/

theorem rdropWhile_append_kept {character : UInt8} {before after : Bytes}
    (h : isSpace character = false) : (before ++ character :: after).rdropWhile isSpace =
      before ++ character :: after.rdropWhile isSpace := by
  rw [List.rdropWhile, List.reverse_append, List.reverse_cons, List.append_assoc,
    List.singleton_append, dropWhile_append_cons h]
  simp [List.rdropWhile]

theorem trim_append_kept {character : UInt8} {before after : Bytes}
    (h : isSpace character = false) : trim (before ++ character :: after) =
      before.dropWhile isSpace ++ character :: after.rdropWhile isSpace := by
  rw [trim, dropWhile_append_cons h, rdropWhile_append_kept h]

theorem trim_rdropWhile : trim (text.rdropWhile isSpace) = trim text := by
  by_cases hblank : ∀ character ∈ text, isSpace character = true
  · rw [trim, trim, List.rdropWhile_eq_nil_iff.mpr hblank, List.dropWhile_eq_nil_iff.mpr hblank]
    rfl
  · push Not at hblank
    obtain ⟨character, hmem, hspace⟩ := hblank
    obtain ⟨before, after, rfl⟩ := List.append_of_mem hmem
    replace hspace : isSpace character = false := by simpa using hspace
    rw [rdropWhile_append_kept hspace, trim_append_kept hspace, trim_append_kept hspace,
      List.rdropWhile_idempotent]

theorem splitEquals_append {before after : Bytes} {pair : Bytes × Bytes}
    (h : splitEquals (before ++ byte '=' :: after) = some pair) :
    byte '=' ∉ before ∧ byte '=' ∉ after ∧ pair = (trim before, trim after) := by
  have hbefore : byte '=' ∉ before := by
    intro hmem
    obtain ⟨first, second, rfl, hfirst⟩ := List.eq_append_cons_of_mem hmem
    have hdrop : (first ++ byte '=' :: second ++ byte '=' :: after).dropWhile (· != byte '=') =
        byte '=' :: (second ++ byte '=' :: after) := by
      rw [List.append_assoc, List.cons_append, List.dropWhile_append_of_pos,
        List.dropWhile_cons_of_neg (by simp)]
      intro character hcharacter
      rw [bne_iff_ne]
      rintro rfl
      exact hfirst hcharacter
    rw [splitEquals, hdrop] at h
    simp at h
  have hafter : byte '=' ∉ after := by
    intro hmem
    have hdrop : (before ++ byte '=' :: after).dropWhile (· != byte '=') = byte '=' :: after := by
      rw [List.dropWhile_append_of_pos, List.dropWhile_cons_of_neg (by simp)]
      intro character hcharacter
      rw [bne_iff_ne]
      rintro rfl
      exact hbefore hcharacter
    rw [splitEquals, hdrop] at h
    simp [hmem] at h
  have hsplit := splitEquals_keyLine hbefore hafter
  rw [keyLine, h] at hsplit
  exact ⟨hbefore, hafter, Option.some.inj hsplit⟩

theorem isActiveLine_congr {other : Bytes} (h : text.head? = other.head?) :
    isActiveLine text = isActiveLine other := by
  cases text with
  | nil =>
      cases other with
      | nil => rfl
      | cons => cases h
  | cons first text =>
      cases other with
      | nil => cases h
      | cons first' other =>
          obtain rfl := Option.some.inj h
          rfl

/-- The first character of a line does not depend on the spaces after its key. -/
theorem head_key (key rest : Bytes) (count : Nat) :
    ((key ++ spaces count).dropWhile isSpace ++ byte '=' :: rest).head? =
      ((key ++ [byte '=']).dropWhile isSpace).head? := by
  rw [dropWhile_append_cons (by decide)]
  by_cases hblank : ∀ character ∈ key, isSpace character = true
  · have hblank' : ∀ character ∈ key ++ spaces count, isSpace character = true := by
      intro character hcharacter
      rcases List.mem_append.mp hcharacter with hmem | hmem
      · exact hblank character hmem
      · rw [List.eq_of_mem_replicate hmem]
        decide
    rw [List.dropWhile_eq_nil_iff.mpr hblank, List.dropWhile_eq_nil_iff.mpr hblank']
    rfl
  · have hne : key.dropWhile isSpace ≠ [] := fun hnil =>
      hblank (List.dropWhile_eq_nil_iff.mp hnil)
    rw [List.dropWhile_append, if_neg (by simpa using hne), List.append_assoc,
      List.head?_append_of_ne_nil _ hne, List.head?_append_of_ne_nil _ hne]

theorem seenText_keySpaces {key value : Bytes} {left right middle last : Nat}
    (hkey : lineFeed ∉ key) (hvalue : lineFeed ∉ value) :
    seenText (keyLine (spaces left ++ key ++ spaces right) (spaces middle ++ value ++ spaces last)) =
      (key.filter (· != carriageReturn) ++ spaces right).dropWhile isSpace ++ byte '=' ::
        (spaces middle ++ value.filter (· != carriageReturn)).rdropWhile isSpace := by
  have hline : lineFeed ∉
      keyLine (spaces left ++ key ++ spaces right) (spaces middle ++ value ++ spaces last) := by
    have hspaces : ∀ count, lineFeed ∉ spaces count := fun _ => notMem_spaces (by decide)
    simp only [keyLine, List.mem_append, List.mem_cons, not_or]
    exact ⟨⟨⟨hspaces _, hkey⟩, hspaces _⟩, by decide, ⟨hspaces _, hvalue⟩, hspaces _⟩
  rw [seenText, lineText_of_notMem hline, keyLine, List.filter_append,
    List.filter_cons_of_pos (by decide)]
  simp only [List.filter_append, filter_spaces]
  rw [trim_append_kept (by decide), List.append_assoc, dropWhile_spaces, rdropWhile_spaces]

theorem sameLine_of_keySpaces {key value : Bytes}
    {left right middle last left' right' middle' last' : Nat} (hkey : lineFeed ∉ key)
    (hvalue : lineFeed ∉ value)
    (hok : LineOk (keyLine (spaces left' ++ key ++ spaces right')
      (spaces middle' ++ value ++ spaces last'))) :
    SameLine
      (keyLine (spaces left ++ key ++ spaces right) (spaces middle ++ value ++ spaces last))
      (keyLine (spaces left' ++ key ++ spaces right')
        (spaces middle' ++ value ++ spaces last')) := by
  refine ⟨hok, fun item hitem => ?_⟩
  rw [seenText_keySpaces hkey hvalue] at hitem ⊢
  cases hitem with
  | nothing hskip =>
      refine .nothing ?_
      rwa [isActiveLine_congr ((head_key _ _ _).trans (head_key _ _ _).symm)]
  | header header hseen =>
      exfalso
      have hnone : byte '=' ∉ sectionHeader header := by cases header <;> decide
      rw [← hseen] at hnone
      simp at hnone
  | setting setting value' hgives =>
      obtain ⟨hbefore, hafter, hpair⟩ := splitEquals_append hgives.split
      obtain ⟨hsetting, rfl⟩ := Prod.mk.inj hpair
      have htrimKey : ∀ count, trim ((key.filter (· != carriageReturn) ++
          spaces count).dropWhile isSpace) = trim (key.filter (· != carriageReturn)) := by
        intro count
        rw [trim_dropWhile]
        exact trim_spaces_right
      have htrimValue : ∀ count, trim ((spaces count ++
          value.filter (· != carriageReturn)).rdropWhile isSpace) =
            trim (value.filter (· != carriageReturn)) := by
        intro count
        rw [trim_rdropWhile]
        exact trim_spaces_left
      have hmemKey : ∀ count, byte '=' ∈ (key.filter (· != carriageReturn) ++
          spaces count).dropWhile isSpace ↔ byte '=' ∈ key.filter (· != carriageReturn) := by
        intro count
        rw [mem_dropWhile_of_not (by decide), List.mem_append]
        exact or_iff_left (notMem_spaces (by decide))
      have hmemValue : ∀ count, byte '=' ∈ (spaces count ++
          value.filter (· != carriageReturn)).rdropWhile isSpace ↔
            byte '=' ∈ value.filter (· != carriageReturn) := by
        intro count
        rw [mem_rdropWhile_of_not (by decide), List.mem_append]
        exact or_iff_right (notMem_spaces (by decide))
      rw [hmemKey] at hbefore
      rw [hmemValue] at hafter
      have hsplit := splitEquals_keyLine (mt (hmemKey right').mp hbefore)
        (mt (hmemValue middle').mp hafter)
      rw [htrimKey, htrimValue] at hsplit
      rw [htrimKey] at hsetting
      have hhead : ∀ right middle right' middle', _ := fun right middle right' middle' =>
        (head_key (key.filter (· != carriageReturn))
          ((spaces middle ++ value.filter (· != carriageReturn)).rdropWhile isSpace) right).trans
          (head_key _
            ((spaces middle' ++ value.filter (· != carriageReturn)).rdropWhile isSpace) right').symm
      refine .setting setting _ ⟨?_, ?_, ?_, hgives.accepts, hgives.ne_nil⟩
      · rw [← isActiveLine_congr (hhead right middle right' middle')]
        exact hgives.active
      · rw [← hhead right middle right' middle']
        exact hgives.noHeader
      · rw [hsetting, htrimValue]
        exact hsplit

/-! ### Other orders -/

theorem not_header_of_says_line {line : Bytes} {header : NcvConfigSection} (h : ¬ IsHeaderLine line)
    (hitem : SaysItem (seenText line) (some (.header header))) : False := by
  cases hitem with
  | header _ hseen =>
      rw [IsHeaderLine, hseen] at h
      exact h (head_sectionHeader header)

/-- A line that says nothing may be left out. -/
theorem Says.of_inactive (hline : isActiveLine (seenText line) = false)
    (h : Says current (line :: lines) headers entries) : Says current lines headers entries := by
  cases h with
  | skip _ _ h => exact h
  | header header _ hitem => exact (not_header_of_says_line (not_header_of_inactive hline) hitem).elim
  | setting _ _ _ hitem =>
      cases hitem with
      | setting _ _ hgives => simp [hgives.active] at hline

theorem Says.no_headers (h : Says current lines headers entries)
    (hlines : ∀ line ∈ lines, ¬ IsHeaderLine line) : headers = [] := by
  induction h with
  | nil => rfl
  | skip _ _ _ ih => exact ih (List.forall_mem_cons.mp hlines).2
  | header header _ hline =>
      exact (not_header_of_says_line (List.forall_mem_cons.mp hlines).1 hline).elim
  | setting _ _ _ _ _ ih => exact ih (List.forall_mem_cons.mp hlines).2

theorem Says.append_body_iff : Says current (lines ++ lines') [] entries ↔
    ∃ entries₁ entries₂, Says current lines [] entries₁ ∧ Says current lines' [] entries₂ ∧
      entries = entries₁ ++ entries₂ := by
  rw [Says.append_iff]
  constructor
  · rintro ⟨headers₁, entries₁, headers₂, entries₂, h₁, h₂, hnil, rfl⟩
    obtain ⟨rfl, rfl⟩ := List.append_eq_nil_iff.mp hnil.symm
    exact ⟨entries₁, entries₂, h₁, h₂, rfl⟩
  · rintro ⟨entries₁, entries₂, h₁, h₂, rfl⟩
    exact ⟨[], entries₁, [], entries₂, h₁, h₂, rfl, rfl⟩

/-- Lines without a header say the same in any order. -/
theorem Says.perm_body (hperm : lines.Perm lines') (h : Says current lines [] entries) :
    ∃ entries', Says current lines' [] entries' ∧ entries'.Perm entries := by
  induction hperm generalizing entries with
  | nil => exact ⟨entries, h, .refl _⟩
  | cons line _ ih =>
      rw [← List.singleton_append, Says.append_body_iff] at h
      obtain ⟨entries₁, entries₂, h₁, h₂, rfl⟩ := h
      obtain ⟨entries', h', hentries⟩ := ih h₂
      refine ⟨entries₁ ++ entries', ?_, hentries.append_left _⟩
      rw [← List.singleton_append, Says.append_body_iff]
      exact ⟨entries₁, entries', h₁, h', rfl⟩
  | swap line line' body =>
      rw [← List.singleton_append, Says.append_body_iff] at h
      obtain ⟨entries₁, _, h₁, h, rfl⟩ := h
      rw [← List.singleton_append, Says.append_body_iff] at h
      obtain ⟨entries₂, entries₃, h₂, h₃, rfl⟩ := h
      refine ⟨entries₂ ++ (entries₁ ++ entries₃), ?_, List.perm_append_comm_assoc _ _ _⟩
      rw [← List.singleton_append, Says.append_body_iff]
      refine ⟨entries₂, _, h₂, ?_, rfl⟩
      rw [← List.singleton_append, Says.append_body_iff]
      exact ⟨entries₁, entries₃, h₁, h₃, rfl⟩
  | trans _ _ ih ih' =>
      obtain ⟨middle, h', hentries⟩ := ih h
      obtain ⟨entries', h'', hentries'⟩ := ih' h'
      exact ⟨entries', h'', hentries'.trans hentries⟩

/-- A section block says the same wherever it stands. -/
theorem Says.of_block {block : List Bytes} (hblock : IsSectionBlock block)
    (h : Says current (block ++ lines) headers entries) :
    Says current' (block ++ lines) headers entries := by
  obtain ⟨line, body, rfl, hline, -⟩ := hblock
  rw [List.cons_append] at h ⊢
  cases h with
  | skip _ hitem =>
      cases hitem with
      | nothing hskip => exact absurd hline (not_header_of_inactive hskip)
  | header header hok hitem h => exact .header header hok hitem h
  | setting _ _ _ hitem =>
      cases hitem with
      | setting _ _ hgives => exact absurd hline hgives.noHeader

theorem Says.of_blocks {blocks : List (List Bytes)} (hblocks : ∀ block ∈ blocks, IsSectionBlock block)
    (h : Says current blocks.flatten headers entries) :
    Says current' blocks.flatten headers entries := by
  cases blocks with
  | nil =>
      cases h
      exact .nil _
  | cons block blocks => exact h.of_block (hblocks block (List.mem_cons_self ..))

/-- Section blocks say the same in any order. -/
theorem Says.perm_blocks {blocks blocks' : List (List Bytes)} (hperm : blocks.Perm blocks')
    (hblocks : ∀ block ∈ blocks, IsSectionBlock block)
    (h : Says current blocks.flatten headers entries) :
    ∃ headers' entries', Says current blocks'.flatten headers' entries' ∧
      headers'.Perm headers ∧ entries'.Perm entries := by
  induction hperm generalizing current headers entries with
  | nil => exact ⟨headers, entries, h, .refl _, .refl _⟩
  | cons block _ ih =>
      rw [List.forall_mem_cons] at hblocks
      rw [List.flatten_cons, Says.append_iff] at h
      obtain ⟨headers₁, entries₁, headers₂, entries₂, h₁, h₂, rfl, rfl⟩ := h
      obtain ⟨headers', entries', h', hheaders, hentries⟩ := ih hblocks.2 h₂
      refine ⟨headers₁ ++ headers', entries₁ ++ entries', ?_, hheaders.append_left _,
        hentries.append_left _⟩
      rw [List.flatten_cons, Says.append_iff]
      exact ⟨_, _, _, _, h₁, h', rfl, rfl⟩
  | swap block block' blocks =>
      rw [List.forall_mem_cons, List.forall_mem_cons] at hblocks
      obtain ⟨hblock', hblock, hblocks⟩ := hblocks
      rw [List.flatten_cons, Says.append_iff] at h
      obtain ⟨headers₁, entries₁, _, _, h₁, h, rfl, rfl⟩ := h
      rw [List.flatten_cons, Says.append_iff] at h
      obtain ⟨headers₂, entries₂, headers₃, entries₃, h₂, h₃, rfl, rfl⟩ := h
      have halone : ∀ {block : List Bytes} {current current' headers entries},
          IsSectionBlock block → Says current block headers entries →
            Says current' block headers entries := by
        intro block current current' headers entries hblock h
        rw [← List.append_nil block] at h ⊢
        exact h.of_block hblock
      refine ⟨headers₂ ++ (headers₁ ++ headers₃), entries₂ ++ (entries₁ ++ entries₃), ?_,
        List.perm_append_comm_assoc _ _ _, List.perm_append_comm_assoc _ _ _⟩
      rw [List.flatten_cons, Says.append_iff]
      refine ⟨_, _, _, _, halone hblock h₂, ?_, rfl, rfl⟩
      rw [List.flatten_cons, Says.append_iff]
      exact ⟨_, _, _, _, halone hblock' h₁, h₃.of_blocks hblocks, rfl, rfl⟩
  | trans hperm _ ih ih' =>
      obtain ⟨headers', entries', h', hheaders, hentries⟩ := ih hblocks h
      obtain ⟨headers'', entries'', h'', hheaders', hentries'⟩ := ih' (fun block hblock =>
        hblocks block (hperm.mem_iff.mpr hblock)) h'
      exact ⟨headers'', entries'', h'', hheaders'.trans hheaders, hentries'.trans hentries⟩

/-! ### Another layout -/

/-- Another layout has lines without line feeds. -/
theorem Relayout.notMem (h : Relayout lines lines') (hlines : ∀ line ∈ lines, lineFeed ∉ line) :
    ∀ line ∈ lines', lineFeed ∉ line := by
  have hspaces : ∀ count, lineFeed ∉ spaces count := fun _ => notMem_spaces (by decide)
  induction h with
  | refl => exact hlines
  | trans _ _ ih ih' => exact ih' (ih hlines)
  | returns before after line line' h =>
      simp only [List.forall_mem_append, List.forall_mem_cons] at hlines ⊢
      refine ⟨hlines.1, fun hmem => hlines.2.1 ?_, hlines.2.2⟩
      have hfilter : lineFeed ∈ line'.filter (· != carriageReturn) :=
        List.mem_filter.mpr ⟨hmem, by decide⟩
      rw [h] at hfilter
      exact (List.mem_filter.mp hfilter).1
  | add before after line _ _ hfeed =>
      simp only [List.forall_mem_append, List.forall_mem_cons] at hlines ⊢
      exact ⟨hlines.1, hfeed, hlines.2⟩
  | remove =>
      simp only [List.forall_mem_append, List.forall_mem_cons] at hlines ⊢
      exact ⟨hlines.1, hlines.2.2⟩
  | headerSpaces =>
      simp only [List.forall_mem_append, List.forall_mem_cons] at hlines ⊢
      obtain ⟨hbefore, hline, hafter⟩ := hlines
      simp only [List.mem_append, not_or] at hline ⊢
      exact ⟨hbefore, ⟨⟨hspaces _, hline.1.2⟩, hspaces _⟩, hafter⟩
  | keySpaces =>
      simp only [List.forall_mem_append, List.forall_mem_cons] at hlines ⊢
      obtain ⟨hbefore, hline, hafter⟩ := hlines
      simp only [keyLine, List.mem_append, List.mem_cons, not_or] at hline ⊢
      obtain ⟨⟨⟨-, hkey⟩, -⟩, hequals, ⟨-, hvalue⟩, -⟩ := hline
      exact ⟨hbefore, ⟨⟨⟨hspaces _, hkey⟩, hspaces _⟩, hequals, ⟨hspaces _, hvalue⟩, hspaces _⟩,
        hafter⟩
  | keys _ _ body body' _ h =>
      simp only [List.forall_mem_append] at hlines ⊢
      exact ⟨⟨hlines.1.1, fun line hline => hlines.1.2 line (h.mem_iff.mp hline)⟩, hlines.2⟩
  | sections _ blocks blocks' _ h =>
      simp only [List.forall_mem_append] at hlines ⊢
      exact ⟨hlines.1, fun line hline => hlines.2 line (h.flatten.mem_iff.mp hline)⟩

/-- **Another layout says the same headers and settings.** -/
theorem Relayout.says (h : Relayout lines lines') (hlines : ∀ line ∈ lines, lineFeed ∉ line)
    (hlists : Says current lines headers entries) :
    ∃ headers' entries', Says current lines' headers' entries' ∧ headers'.Perm headers ∧
      entries'.Perm entries := by
  induction h generalizing headers entries with
  | refl => exact ⟨headers, entries, hlists, .refl _, .refl _⟩
  | trans h _ ih ih' =>
      obtain ⟨headers', entries', hlists', hheaders, hentries⟩ := ih hlines hlists
      obtain ⟨headers'', entries'', hlists'', hheaders', hentries'⟩ :=
        ih' (h.notMem hlines) hlists'
      exact ⟨headers'', entries'', hlists'', hheaders'.trans hheaders, hentries'.trans hentries⟩
  | returns before after line line' h =>
      exact ⟨headers, entries, hlists.replace_middle (sameLine_of_returns h), .refl _, .refl _⟩
  | add before after line hline hok =>
      obtain ⟨_, _, _, _, h₁, h₂, rfl, rfl⟩ := Says.append_iff.mp hlists
      exact ⟨_, _, Says.append_iff.mpr ⟨_, _, _, _, h₁, .skip hok (.nothing hline) h₂, rfl, rfl⟩,
        .refl _, .refl _⟩
  | remove before after line hline =>
      obtain ⟨_, _, _, _, h₁, h₂, rfl, rfl⟩ := Says.append_iff.mp hlists
      exact ⟨_, _, Says.append_iff.mpr ⟨_, _, _, _, h₁, h₂.of_inactive hline, rfl, rfl⟩, .refl _,
        .refl _⟩
  | headerSpaces before after text left right left' right' hok =>
      have htext : lineFeed ∉ text := by
        intro hmem
        exact hlines (spaces left ++ text ++ spaces right) (by simp) (by simp [hmem])
      exact ⟨headers, entries,
        hlists.replace_middle fun _ => sameLine_of_headerSpaces htext hok, .refl _, .refl _⟩
  | keySpaces before after key value left right middle last _ _ _ _ hok =>
      have hline := hlines
        (keyLine (spaces left ++ key ++ spaces right) (spaces middle ++ value ++ spaces last))
        (by simp)
      simp only [keyLine, List.mem_append, List.mem_cons, not_or] at hline
      exact ⟨headers, entries, hlists.replace_middle fun _ =>
        sameLine_of_keySpaces hline.1.1.2 hline.2.2.1.2 hok, .refl _, .refl _⟩
  | keys before after body body' hbody h =>
      rw [List.append_assoc] at hlists
      obtain ⟨_, _, _, _, h₁, h₂, rfl, rfl⟩ := Says.append_iff.mp hlists
      obtain ⟨_, _, _, _, h₃, h₄, rfl, rfl⟩ := Says.append_iff.mp h₂
      obtain rfl := h₃.no_headers hbody
      obtain ⟨entries', h₃', hentries⟩ := h₃.perm_body h.symm
      refine ⟨_, _, ?_, .refl _, (hentries.append_right _).append_left _⟩
      rw [List.append_assoc]
      exact Says.append_iff.mpr ⟨_, _, _, _, h₁,
        Says.append_iff.mpr ⟨_, _, _, _, h₃', h₄, rfl, rfl⟩, rfl, rfl⟩
  | sections before blocks blocks' hblocks h =>
      obtain ⟨_, _, _, _, h₁, h₂, rfl, rfl⟩ := Says.append_iff.mp hlists
      obtain ⟨headers', entries', h₂', hheaders, hentries⟩ := h₂.perm_blocks h.symm hblocks
      exact ⟨_, _, Says.append_iff.mpr ⟨_, _, _, _, h₁, h₂', rfl, rfl⟩,
        hheaders.append_left _, hentries.append_left _⟩

/-! ### Texts -/

/-- A text is read as its lines without their line feeds. -/
theorem readsLines_splitOn : ReadsLines reading (linesOf text) reading' ↔
    ReadsLines reading (text.splitOn lineFeed) reading' := by
  induction text using lines_induction generalizing reading with
  | nil =>
      constructor
      · intro h
        cases h
        exact .cons ⟨by decide, by decide⟩ (.skip rfl) (.nil _)
      · intro h
        obtain ⟨-, hline⟩ := ReadsLines.singleton_iff.mp h
        obtain rfl := hline.unique (.skip rfl)
        exact .nil _
  | last line hline hne => rw [linesOf_of_notMem hline hne, List.splitOn_eq_singleton hline]
  | cons line rest hline ih =>
      have hsame : LineOk (line ++ [lineFeed]) ↔ LineOk line := by
        rw [LineOk, LineOk, lineText_concat hline]
      have hseen : seenText (line ++ [lineFeed]) = seenText line := by
        rw [seenText, seenText, lineText_concat hline]
      rw [linesOf_cons hline, List.splitOn_append_cons_self_of_not_mem hline]
      constructor
      · intro h
        cases h with
        | cons hok hstep hlines => exact .cons (hsame.mp hok) (hseen ▸ hstep) (ih.mp hlines)
      · intro h
        cases h with
        | cons hok hstep hlines => exact .cons (hsame.mpr hok) (hseen.symm ▸ hstep) (ih.mpr hlines)

theorem notMem_splitOn : ∀ line ∈ text.splitOn lineFeed, lineFeed ∉ line := by
  induction text using lines_induction with
  | nil => simp
  | last line hline hne =>
      rw [List.splitOn_eq_singleton hline]
      simpa using hline
  | cons line rest hline ih =>
      rw [List.splitOn_append_cons_self_of_not_mem hline, List.forall_mem_cons]
      exact ⟨hline, ih⟩

/-- The key that a line sets. -/
def lineKey (line : Bytes) : Option Bytes :=
  if isActiveLine (seenText line) ∧ ¬ IsHeaderLine line then
    (splitEquals (seenText line)).map Prod.fst
  else none

theorem Says.header_line (h : Says current (line :: lines) headers entries)
    (hline : IsHeaderLine line) :
    ∃ header rest, headers = header :: rest ∧ seenText line = sectionHeader header ∧
      Says (some header) lines rest entries := by
  cases h with
  | skip _ hitem =>
      cases hitem with
      | nothing hskip => exact absurd hline (not_header_of_inactive hskip)
  | header header _ hitem h =>
      cases hitem with
      | header _ hseen => exact ⟨header, _, rfl, hseen, h⟩
  | setting _ _ _ hitem =>
      cases hitem with
      | setting _ _ hgives => exact absurd hline hgives.noHeader

theorem Says.key_line {key : Bytes} (h : Says current (line :: lines) headers entries)
    (hkey : lineKey line = some key) :
    ∃ setting value rest, entries = (setting, value) :: rest ∧ setting.key = key ∧
      Says current lines headers rest := by
  unfold lineKey at hkey
  split at hkey
  case isFalse => cases hkey
  case isTrue hactive =>
    cases h with
    | skip _ hitem =>
        cases hitem with
        | nothing hskip => simp [hskip] at hactive
    | header header _ hitem => exact (not_header_of_says_line hactive.2 hitem).elim
    | setting setting value _ hitem h =>
        cases hitem with
        | setting _ _ hgives =>
            rw [hgives.split, Option.map_some, Option.some.injEq] at hkey
            exact ⟨setting, value, _, rfl, hkey, h⟩

/-- No header and no key stands twice. -/
theorem Says.once {before between after : List Bytes}
    (h : Says current (before ++ line :: (between ++ line' :: after)) headers entries)
    (hheaders : headers.Nodup) (hsettings : (entries.map Prod.fst).Nodup) :
    ¬ (IsHeaderLine line ∧ seenText line' = seenText line) ∧
      ¬ ∃ key, lineKey line = some key ∧ lineKey line' = some key := by
  obtain ⟨headers₁, entries₁, headers₂, entries₂, -, htail, rfl, rfl⟩ := Says.append_iff.mp h
  constructor
  · rintro ⟨hline, hsame⟩
    obtain ⟨header, rest, rfl, hseen, h⟩ := htail.header_line hline
    obtain ⟨headers₃, entries₃, _, _, -, htail', rfl, -⟩ := Says.append_iff.mp h
    have hline' : IsHeaderLine line' := by rwa [IsHeaderLine, hsame]
    obtain ⟨header', rest', rfl, hseen', -⟩ := htail'.header_line hline'
    obtain rfl := sectionHeader_injective (hseen.symm.trans (hsame.symm.trans hseen'))
    have htwice := (List.nodup_append.mp hheaders).2.1
    rw [List.nodup_cons] at htwice
    exact htwice.1 (by simp)
  · rintro ⟨key, hkey, hkey'⟩
    obtain ⟨setting, value, rest, rfl, hsetting, h⟩ := htail.key_line hkey
    obtain ⟨headers₃, entries₃, _, _, -, htail', -, rfl⟩ := Says.append_iff.mp h
    obtain ⟨setting', value', rest', rfl, hsetting', -⟩ := htail'.key_line hkey'
    obtain rfl := key_injective (hsetting.trans hsetting'.symm)
    rw [List.map_append] at hsettings
    have htwice := (List.nodup_append.mp hsettings).2.1
    rw [List.map_cons, List.nodup_cons] at htwice
    exact htwice.1 (by simp)

/-- **The layout of a text does not matter.** Every other layout that is not empty is accepted with the
same configuration, and no header and no key stands twice in the text. -/
theorem layout_independent {config : NcvConfigCore}
    (hparse : ncvParseConfigStrict text ncvConfigDefaults = .ok config) :
    (∀ lines, Relayout (text.splitOn lineFeed) lines → [lineFeed].intercalate lines ≠ [] →
      ncvParseConfigStrict ([lineFeed].intercalate lines) ncvConfigDefaults = .ok config) ∧
    ∀ before line between line' after,
      text.splitOn lineFeed = before ++ line :: (between ++ line' :: after) →
        ¬ (IsHeaderLine line ∧ seenText line' = seenText line) ∧
          ¬ ∃ key, lineKey line = some key ∧ lineKey line' = some key := by
  obtain ⟨-, reading, hreads, hfinish⟩ := ncvParseConfigStrict_iff.mp hparse
  rw [readsLines_splitOn] at hreads
  obtain ⟨headers, entries, hlists, hfresh, hadds⟩ := hreads.says
  constructor
  · intro lines hlayout hne
    obtain ⟨headers', entries', hlists', hheaders, hentries⟩ :=
      hlayout.says notMem_splitOn hlists
    have hfresh' : Fresh .start headers' entries' :=
      ⟨hheaders.nodup_iff.mpr hfresh.headersNodup, fun _ _ => List.not_mem_nil,
        (hentries.map Prod.fst).nodup_iff.mpr hfresh.settingsNodup, fun _ _ => rfl⟩
    obtain ⟨reading', hreads', hadds'⟩ := hlists'.reads rfl hfresh'
    have hvalues : reading'.values = reading.values := by
      funext setting
      apply Option.ext
      intro value
      rw [hadds' setting value, hadds setting value, hentries.mem_iff]
    have hlines : lines ≠ [] := by
      rintro rfl
      exact hne rfl
    have hsplit : ([lineFeed].intercalate lines).splitOn lineFeed = lines :=
      List.splitOn_intercalate _ (hlayout.notMem notMem_splitOn) hlines
    rw [← hsplit, ← readsLines_splitOn] at hreads'
    exact ncvParseConfigStrict_iff.mpr ⟨hne, reading', hreads', hvalues ▸ hfinish⟩
  · intro before line between line' after htext
    rw [htext] at hlists
    exact hlists.once hfresh.headersNodup hfresh.settingsNodup

/-- The sections in another order, with a comment, spaces and a carriage return. -/
theorem layout_independent_sections :
    ncvParseConfigStrict (ascii " [Boot]\nTargetBbsDescription= Disk\n[Behavior]\nProbe=false")
        ncvConfigDefaults =
      ncvParseConfigStrict (ascii "[Behavior]\nProbe=false\n [Boot]\nTargetBbsDescription= Disk")
        ncvConfigDefaults := by
  have hparse : ncvParseConfigStrict
      (ascii "[Behavior]\nProbe=false\n [Boot]\nTargetBbsDescription= Disk") ncvConfigDefaults =
        .ok
          { ncvConfigDefaults with
            hasProbe := true
            probe := false
            hasTargetBbsDescription := true
            targetBbsDescription := ascii "Disk" } := by
    decide +kernel
  have hlayout : Relayout
      ((ascii "[Behavior]\nProbe=false\n [Boot]\nTargetBbsDescription= Disk").splitOn lineFeed)
      [ascii " [Boot]", ascii "TargetBbsDescription= Disk", ascii "[Behavior]",
        ascii "Probe=false"] := by
    refine .sections []
      [[ascii "[Behavior]", ascii "Probe=false"],
        [ascii " [Boot]", ascii "TargetBbsDescription= Disk"]]
      [[ascii " [Boot]", ascii "TargetBbsDescription= Disk"],
        [ascii "[Behavior]", ascii "Probe=false"]] ?_ (.swap _ _ _)
    simp only [List.forall_mem_cons, List.not_mem_nil, false_implies, implies_true, and_true]
    exact ⟨⟨_, _, rfl, by decide, by decide⟩, _, _, rfl, by decide, by decide⟩
  rw [hparse]
  exact (layout_independent hparse).1 _ hlayout (by decide)

/-- A text of one carriage return is accepted, and the empty text that is left without it is not; nor is
a comment with a tab. -/
theorem layout_empty :
    ncvParseConfigStrict [carriageReturn] ncvConfigDefaults = .ok ncvConfigDefaults ∧
      Relayout ([carriageReturn].splitOn lineFeed) [[]] ∧
      ncvParseConfigStrict ([lineFeed].intercalate [[]]) ncvConfigDefaults =
        .error .invalidParameter ∧
      ncvParseConfigStrict (ascii "#") ncvConfigDefaults = .ok ncvConfigDefaults ∧
      ncvParseConfigStrict (ascii "#\t") ncvConfigDefaults = .error .compromisedData :=
  ⟨by decide +kernel, .returns [] [] [carriageReturn] [] rfl, by decide +kernel, by decide +kernel,
    by decide +kernel⟩

end CsmVgaSelector
