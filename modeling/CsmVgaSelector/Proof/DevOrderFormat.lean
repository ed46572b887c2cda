import CsmVgaSelector.Proof.DevOrderRead
import Mathlib.Data.List.Nodup
import Mathlib.Data.List.Perm.Subperm

/-!
# Which LegacyDevOrder variables are usable

The variable is a row of entries, each of which lists rows of one type; it is usable when together they list
every row of valid priority once. What the scan has built at any point is a function of the types and of the
index words behind it, so a scan that comes to its end can be read off the entries.
-/

namespace CsmVgaSelector

section

variable {words : List UInt16} {word : UInt16} {bytes : List UInt8}

/-! ### Words and their bytes -/

theorem writeLe16_toNat : (writeLe16 word).map UInt8.toNat = [word.toNat % 256, word.toNat / 256] := by
  have hlt := word.toNat_lt
  have hhigh : ((word >>> 8).toUInt8).toNat = word.toNat / 256 := by
    rw [UInt16.toNat_toUInt8, UInt16.toNat_shiftRight]
    change word.toNat >>> 8 % 2 ^ 8 = _
    rw [Nat.shiftRight_eq_div_pow]
    omega
  rw [writeLe16, List.map_cons, List.map_singleton, hhigh, UInt16.toNat_toUInt8]

theorem writeLe16_readLe16 {low high : UInt8} : writeLe16 (readLe16 [low, high] 0) = [low, high] := by
  have hlow := low.toNat_lt
  have hword : (readLe16 [low, high] 0).toNat = low.toNat + 256 * high.toNat := readLe16_toNat
  have hinjective : Function.Injective (List.map UInt8.toNat) :=
    List.map_injective_iff.mpr fun _ _ => UInt8.toNat_inj.mp
  apply hinjective
  rw [writeLe16_toNat, hword, List.map_cons, List.map_singleton]
  congr 1
  · omega
  · congr 1
    omega

theorem readLe16_writeLe16 {after : List UInt8} : readLe16 (writeLe16 word ++ after) 0 = word := by
  have hbytes := @writeLe16_toNat word
  rw [writeLe16, List.map_cons, List.map_singleton, List.cons_eq_cons, List.cons_eq_cons] at hbytes
  rw [readLe16_eq_iff]
  change word.toUInt8.toNat + 256 * (word >>> 8).toUInt8.toNat = word.toNat
  omega

theorem dataWords_flatMap : dataWords (words.flatMap writeLe16) = words := by
  induction words with
  | nil => rfl
  | cons word words ih =>
      have hword := @readLe16_writeLe16 word []
      rw [List.flatMap_cons, writeLe16, List.cons_append, List.cons_append, List.nil_append, dataWords, ih]
      exact congrArg (· :: words) hword

theorem flatMap_dataWords (heven : bytes.length % 2 = 0) : (dataWords bytes).flatMap writeLe16 = bytes := by
  induction bytes using dataWords.induct with
  | case1 low high rest ih =>
      rw [List.length_cons, List.length_cons] at heven
      have hword := @writeLe16_readLe16 low high
      rw [dataWords, List.flatMap_cons, ih (by omega)]
      exact congrArg (· ++ rest) hword
  | case2 bytes hshort =>
      cases bytes with
      | nil => rfl
      | cons low rest =>
          cases rest with
          | nil => cases heven
          | cons high rest => exact absurd rfl (hshort low high rest)

theorem length_flatMap_writeLe16 : (words.flatMap writeLe16).length = 2 * words.length := by
  induction words with
  | nil => rfl
  | cons word words ih =>
      rw [List.flatMap_cons, List.length_append, ih, List.length_cons]
      change 2 + _ = _
      omega

end

/-! ### Entries -/

structure DevOrderEntry where
  bbsType : UInt8
  words : List UInt16

namespace DevOrderEntry

/-- The length counts itself and the words. -/
def length (entry : DevOrderEntry) : Nat := 2 + 2 * entry.words.length

/-- The entry after its type. -/
def tail (entry : DevOrderEntry) : List UInt8 :=
  writeLe16 (UInt16.ofNat entry.length) ++ entry.words.flatMap writeLe16

def bytes (entry : DevOrderEntry) : List UInt8 := entry.bbsType :: entry.tail

section

variable {rest : List UInt8}

theorem length_tail {entry : DevOrderEntry} : entry.tail.length = entry.length := by
  rw [tail, List.length_append, length_flatMap_writeLe16]
  rfl

/-- What is written as an entry is read as one. -/
theorem read_tail {entry : DevOrderEntry} (hlength : entry.length < 2 ^ 16) :
    entryLength (entry.tail ++ rest) = entry.length ∧ ¬ EntryMalformed (entry.tail ++ rest) ∧
      dataWords (((entry.tail ++ rest).take entry.length).drop 2) = entry.words ∧
      (entry.tail ++ rest).drop entry.length = rest := by
  have hread : entryLength (entry.tail ++ rest) = entry.length := by
    rw [entryLength, tail, List.append_assoc, readLe16_writeLe16, UInt16.toNat_ofNat', Nat.mod_eq_of_lt hlength]
  have htwo : entry.length = 2 + 2 * entry.words.length := rfl
  refine ⟨hread, ?_, ?_, ?_⟩
  · rw [EntryMalformed, hread, List.length_append, length_tail]
    omega
  · rw [← length_tail, List.take_left]
    exact dataWords_flatMap
  · rw [← length_tail, List.drop_left]

/-- The entry that well-formed bytes begin with, after its type. -/
def ofTail (bbsType : UInt8) (rest : List UInt8) : DevOrderEntry where
  bbsType := bbsType
  words := dataWords ((rest.take (entryLength rest)).drop 2)

/-- What is read as an entry is written as one. -/
theorem write_ofTail {bbsType : UInt8} (h : ¬ EntryMalformed rest) :
    (ofTail bbsType rest).length = entryLength rest ∧
      (ofTail bbsType rest).tail ++ rest.drop (entryLength rest) = rest := by
  rw [EntryMalformed, not_or, not_or, not_or, not_not] at h
  have hdata : (((rest.take (entryLength rest)).drop 2)).length = entryLength rest - 2 := by
    rw [List.length_drop, List.length_take]
    omega
  have hwords := @flatMap_dataWords ((rest.take (entryLength rest)).drop 2) (by omega)
  have hcount := congrArg List.length hwords
  rw [length_flatMap_writeLe16, hdata] at hcount
  have hlength : (ofTail bbsType rest).length = entryLength rest := by
    rw [length, ofTail, hcount]
    omega
  refine ⟨hlength, ?_⟩
  obtain ⟨low, high, after, rfl⟩ : ∃ low high after, rest = low :: high :: after := by
    rcases rest with _ | ⟨low, _ | ⟨high, after⟩⟩
    · exact absurd Nat.two_pos h.1
    · exact absurd Nat.one_lt_two h.1
    · exact ⟨low, high, after, rfl⟩
  have hhead : writeLe16 (UInt16.ofNat (entryLength (low :: high :: after))) = [low, high] := by
    rw [entryLength, UInt16.ofNat_toNat]
    exact writeLe16_readLe16
  rw [tail, hlength, hhead, ofTail, hwords]
  obtain ⟨data, hdata⟩ : ∃ data, entryLength (low :: high :: after) = data + 1 + 1 :=
    ⟨entryLength (low :: high :: after) - 2, by omega⟩
  rw [hdata]
  exact congrArg (low :: high :: ·) (List.take_append_drop data after)

/-- What stands at the head of the bytes is one entry at most. -/
theorem head_iff {entry : DevOrderEntry} {bbsType : UInt8} {after : List UInt8} :
    bbsType :: rest = entry.bytes ++ after ∧ entry.length < 2 ^ 16 ↔
      ¬ EntryMalformed rest ∧ entry = ofTail bbsType rest ∧ after = rest.drop (entryLength rest) := by
  constructor
  · rintro ⟨hbytes, hlength⟩
    rw [bytes, List.cons_append, List.cons_eq_cons] at hbytes
    obtain ⟨rfl, rfl⟩ := hbytes
    obtain ⟨hread, hsound, hwords, hafter⟩ := @read_tail after entry hlength
    refine ⟨hsound, ?_, ?_⟩
    · rw [ofTail, hread, hwords]
    · rw [hread, hafter]
  · rintro ⟨hsound, rfl, rfl⟩
    obtain ⟨hlength, htail⟩ := @write_ofTail rest bbsType hsound
    refine ⟨?_, ?_⟩
    · rw [bytes, List.cons_append, htail]
      rfl
    · rw [hlength]
      exact UInt16.toNat_lt _

end

end DevOrderEntry

/-! ### Rows that are named -/

section

variable {journal : List BbsTable} {bbsType : UInt8} {word : UInt16} {words named : List UInt16}
  {types : List UInt8} {scan : DevOrderScan}

def rowOf (word : UInt16) : Nat := (word &&& 0xFF).toNat

def rowsOf (words : List UInt16) : List Nat := words.map rowOf

def isDisabledWord (word : UInt16) : Bool := word &&& 0xFF00 == 0xFF00

/-- The index word names a row of this type and of valid priority, enabled or disabled. -/
structure NamesRow (journal : List BbsTable) (bbsType : UInt8) (word : UInt16) : Prop where
  highByte : word &&& 0xFF00 = 0 ∨ word &&& 0xFF00 = 0xFF00
  inRange : rowOf word < journal.length
  deviceType : journal[rowOf word]!.deviceType = bbsType.toUInt16
  priority : legacyBootBbsPriorityIsValid journal[rowOf word]!.bootPriority = true

/-- The scan after these types and index words. -/
def scanOf (journal : List BbsTable) (types : List UInt8) (named : List UInt16) : DevOrderScan where
  seenType := types
  seenIndex := (List.range journal.length).map fun index => decide (index ∈ rowsOf named)
  ranks := (List.range journal.length).map fun index =>
    if index ∈ rowsOf named then UInt16.ofNat ((rowsOf named).idxOf index) else 0xFFFF
  disabled := (List.range journal.length).map fun index =>
    decide (index ∈ rowsOf (named.filter isDisabledWord))
  globalRank := UInt16.ofNat named.length

theorem startScan_eq : startScan journal = scanOf journal [] [] := by
  have hfalse : (List.range journal.length).map (fun index => decide (index ∈ rowsOf [])) =
      List.replicate journal.length false := by
    rw [List.eq_replicate_iff]
    simp [rowsOf]
  have hnone : (List.range journal.length).map
      (fun index => if index ∈ rowsOf [] then UInt16.ofNat ((rowsOf []).idxOf index) else 0xFFFF) =
      List.replicate journal.length 0xFFFF := by
    rw [List.eq_replicate_iff]
    simp [rowsOf]
  rw [startScan, scanOf, List.filter_nil, hfalse, hnone]
  rfl

/-- A table with one place changed is the table of the changed function. -/
theorem map_range_set {α : Type} {size place : Nat} {f g : Nat → α}
    (h : ∀ index, index ≠ place → f index = g index) :
    ((List.range size).map f).set place (g place) = (List.range size).map g := by
  refine List.ext_getElem (by simp) fun index hindex hindex' => ?_
  rw [List.getElem_set]
  split
  case isTrue heq =>
    subst heq
    simp
  case isFalse hne =>
    rw [List.getElem_map, List.getElem_map, List.getElem_range]
    exact h index (Ne.symm hne)

theorem seenIndex_scanOf {index : Nat} (hindex : index < journal.length) :
    (scanOf journal types named).seenIndex[index]! = decide (index ∈ rowsOf named) := by
  simp [scanOf, hindex]

theorem rowsOf_append : rowsOf (named ++ words) = rowsOf named ++ rowsOf words := List.map_append

section

variable (hnew : rowOf word ∉ rowsOf named)

theorem mem_rowsOf_append {index : Nat} :
    index ∈ rowsOf (named ++ [word]) ↔ index ∈ rowsOf named ∨ index = rowOf word := by
  rw [rowsOf_append, List.mem_append]
  exact or_congr_right List.mem_singleton

theorem seenIndex_append :
    (scanOf journal types named).seenIndex.set (rowOf word) true =
      (scanOf journal types (named ++ [word])).seenIndex := by
  have hset := @map_range_set Bool journal.length (rowOf word) (fun index => decide (index ∈ rowsOf named))
    (fun index => decide (index ∈ rowsOf (named ++ [word]))) fun index hindex => by
      rw [decide_eq_decide, mem_rowsOf_append, or_iff_left hindex]
  rw [decide_eq_true (mem_rowsOf_append.mpr (.inr rfl))] at hset
  exact hset

include hnew

theorem ranks_append :
    (scanOf journal types named).ranks.set (rowOf word) (UInt16.ofNat named.length) =
      (scanOf journal types (named ++ [word])).ranks := by
  have hrank : (rowsOf (named ++ [word])).idxOf (rowOf word) = named.length := by
    rw [rowsOf_append, List.idxOf_append, if_neg hnew, ← List.length_map rowOf]
    rw [show rowsOf [word] = [rowOf word] from rfl, List.idxOf_cons_self, Nat.zero_add]
    rfl
  have hset := @map_range_set UInt16 journal.length (rowOf word)
    (fun index => if index ∈ rowsOf named then UInt16.ofNat ((rowsOf named).idxOf index) else 0xFFFF)
    (fun index => if index ∈ rowsOf (named ++ [word]) then
      UInt16.ofNat ((rowsOf (named ++ [word])).idxOf index) else 0xFFFF) fun index hindex => by
        by_cases hmem : index ∈ rowsOf named
        · rw [if_pos hmem, if_pos (mem_rowsOf_append.mpr (.inl hmem)), rowsOf_append, List.idxOf_append,
            if_pos hmem]
        · rw [if_neg hmem, if_neg (mt mem_rowsOf_append.mp (not_or.mpr ⟨hmem, hindex⟩))]
  rw [if_pos (mem_rowsOf_append.mpr (.inr rfl)), hrank] at hset
  exact hset

theorem disabled_append :
    (scanOf journal types named).disabled.set (rowOf word) (isDisabledWord word) =
      (scanOf journal types (named ++ [word])).disabled := by
  have hold : rowOf word ∉ rowsOf (named.filter isDisabledWord) := fun hmem =>
    hnew (List.map_subset rowOf (List.filter_subset_self _) hmem)
  have hfilter : ∀ index, index ∈ rowsOf ((named ++ [word]).filter isDisabledWord) ↔
      index ∈ rowsOf (named.filter isDisabledWord) ∨ isDisabledWord word = true ∧ index = rowOf word := by
    intro index
    rw [List.filter_append, rowsOf_append, List.mem_append]
    refine or_congr_right ?_
    cases hword : isDisabledWord word with
    | true => simp [hword, rowsOf]
    | false => simp [hword, rowsOf]
  have hset := @map_range_set Bool journal.length (rowOf word)
    (fun index => decide (index ∈ rowsOf (named.filter isDisabledWord)))
    (fun index => decide (index ∈ rowsOf ((named ++ [word]).filter isDisabledWord))) fun index hindex => by
      rw [decide_eq_decide, hfilter, or_iff_left fun h => hindex h.2]
  have hself : decide (rowOf word ∈ rowsOf ((named ++ [word]).filter isDisabledWord)) =
      isDisabledWord word := by
    rw [Bool.eq_iff_iff, decide_eq_true_iff, hfilter, or_iff_right hold, and_iff_left rfl]
  rw [hself] at hset
  exact hset

end

/-- A row that is named for the first time is added to the scan. -/
theorem nameRow_some (hnames : NamesRow journal bbsType word) (hnew : rowOf word ∉ rowsOf named) :
    nameRow journal bbsType word (scanOf journal types named) =
      some (scanOf journal types (named ++ [word])) := by
  have hhigh : ¬ (word &&& 0xFF00 ≠ 0 ∧ word &&& 0xFF00 ≠ 0xFF00) := by
    rw [not_and_or, not_not, not_not]
    exact hnames.highByte
  have hrow : ¬ (rowOf word ≥ journal.length ∨
      (scanOf journal types named).seenIndex[rowOf word]! = true) := by
    rw [seenIndex_scanOf hnames.inRange, decide_eq_true_iff, not_or, ge_iff_le, Nat.not_le]
    exact ⟨hnames.inRange, hnew⟩
  have hfits : ¬ (journal[rowOf word]!.deviceType ≠ bbsType.toUInt16 ∨
      (!legacyBootBbsPriorityIsValid journal[rowOf word]!.bootPriority) = true) := by
    rw [hnames.deviceType, hnames.priority]
    simp
  have hcount : UInt16.ofNat (named ++ [word]).length = UInt16.ofNat named.length + 1 := by
    rw [List.length_append, UInt16.ofNat_add]
    rfl
  rw [nameRow, if_neg hhigh, ← rowOf, if_neg hrow, if_neg hfits]
  refine congrArg some (DevOrderScan.mk.injEq .. ▸ ?_)
  exact ⟨rfl, seenIndex_append, ranks_append hnew, disabled_append hnew, hcount.symm⟩

/-- A word that names no new row is refused. -/
theorem nameRow_none (h : ¬ (NamesRow journal bbsType word ∧ rowOf word ∉ rowsOf named)) :
    nameRow journal bbsType word (scanOf journal types named) = none := by
  rw [nameRow, ← rowOf]
  split
  case isTrue => rfl
  case isFalse hhigh =>
  split
  case isTrue => rfl
  case isFalse hrow =>
  split
  case isTrue => rfl
  case isFalse hfits =>
  refine absurd ?_ h
  rw [not_and_or, not_not, not_not] at hhigh
  rw [not_or, ge_iff_le, Nat.not_le] at hrow
  rw [seenIndex_scanOf hrow.1, decide_eq_true_iff] at hrow
  rw [not_or, not_not, Bool.not_eq_true, Bool.not_eq_false'] at hfits
  exact ⟨⟨hhigh, hrow.1, hfits.1, hfits.2⟩, hrow.2⟩

/-- The words of one entry are scanned to the end exactly when each names a new row. -/
theorem walkDevOrderData_iff (hnodup : (rowsOf named).Nodup) :
    walkDevOrderData journal bbsType words (scanOf journal types named) = some scan ↔
      (∀ word ∈ words, NamesRow journal bbsType word) ∧ (rowsOf (named ++ words)).Nodup ∧
        scan = scanOf journal types (named ++ words) := by
  induction words generalizing named with
  | nil =>
      rw [walkDevOrderData, List.append_nil, Option.some_inj, and_iff_right hnodup]
      exact ⟨fun h => ⟨by simp, h.symm⟩, fun h => h.2.symm⟩
  | cons word words ih =>
      have hassoc : named ++ word :: words = (named ++ [word]) ++ words := by simp
      rw [walkDevOrderData, List.forall_mem_cons]
      by_cases hnames : NamesRow journal bbsType word ∧ rowOf word ∉ rowsOf named
      · have hnodup' : (rowsOf (named ++ [word])).Nodup := by
          rw [rowsOf_append]
          exact List.Nodup.append hnodup (List.nodup_singleton _) (List.disjoint_singleton.mpr hnames.2)
        rw [nameRow_some hnames.1 hnames.2, Option.bind_some, ih hnodup', hassoc, and_iff_right hnames.1]
      · rw [nameRow_none hnames, Option.bind_none]
        refine iff_of_false (by simp) ?_
        rintro ⟨⟨hword, -⟩, hdistinct, -⟩
        refine hnames ⟨hword, fun hmem => ?_⟩
        rw [rowsOf_append] at hdistinct
        exact List.disjoint_of_nodup_append hdistinct hmem List.mem_cons_self

/-! ### The whole variable -/

def wordsOf (entries : List DevOrderEntry) : List UInt16 := entries.flatMap (·.words)

def typesOf (entries : List DevOrderEntry) : List UInt8 := entries.map (·.bbsType)

/-- The bytes are these entries, and go on from a scan of these types and index words. -/
structure Continues (journal : List BbsTable) (types : List UInt8) (named : List UInt16) (bytes : List UInt8)
    (entries : List DevOrderEntry) : Prop where
  bytes_eq : bytes = entries.flatMap DevOrderEntry.bytes
  lengths : ∀ entry ∈ entries, entry.length < 2 ^ 16
  fresh : (typesOf entries).Nodup ∧ ∀ bbsType ∈ typesOf entries, bbsType ∉ types
  names : ∀ entry ∈ entries, ∀ word ∈ entry.words, NamesRow journal entry.bbsType word
  distinct : (rowsOf (named ++ wordsOf entries)).Nodup

theorem continues_nil {bytes : List UInt8} (hnodup : (rowsOf named).Nodup) :
    Continues journal types named bytes [] ↔ bytes = [] := by
  constructor
  · exact Continues.bytes_eq
  · rintro rfl
    refine ⟨rfl, by simp, ⟨List.nodup_nil, by simp [typesOf]⟩, by simp, ?_⟩
    rw [wordsOf, List.flatMap_nil, List.append_nil]
    exact hnodup

theorem continues_cons {bytes : List UInt8} {entry : DevOrderEntry} {entries : List DevOrderEntry} :
    Continues journal types named bytes (entry :: entries) ↔
      ∃ rest, bytes = entry.bytes ++ rest ∧ entry.length < 2 ^ 16 ∧ entry.bbsType ∉ types ∧
        (∀ word ∈ entry.words, NamesRow journal entry.bbsType word) ∧
        Continues journal (entry.bbsType :: types) (named ++ entry.words) rest entries := by
  have hwords : named ++ wordsOf (entry :: entries) = (named ++ entry.words) ++ wordsOf entries := by
    rw [wordsOf, List.flatMap_cons, List.append_assoc]
    rfl
  have htypes : typesOf (entry :: entries) = entry.bbsType :: typesOf entries := rfl
  constructor
  · rintro ⟨hbytes, hlengths, ⟨hnodup, hfresh⟩, hnames, hdistinct⟩
    rw [List.forall_mem_cons] at hlengths hnames
    rw [htypes, List.nodup_cons] at hnodup
    rw [htypes, List.forall_mem_cons] at hfresh
    rw [hwords] at hdistinct
    refine ⟨_, hbytes, hlengths.1, hfresh.1, hnames.1, rfl, hlengths.2, ⟨hnodup.2, ?_⟩, hnames.2, hdistinct⟩
    intro bbsType hmem htype
    rcases List.mem_cons.mp htype with rfl | htype
    · exact hnodup.1 hmem
    · exact hfresh.2 bbsType hmem htype
  · rintro ⟨rest, hbytes, hlength, htype, hentry, hrest, hlengths, ⟨hnodup, hfresh⟩, hnames, hdistinct⟩
    refine ⟨?_, List.forall_mem_cons.mpr ⟨hlength, hlengths⟩, ⟨?_, ?_⟩,
      List.forall_mem_cons.mpr ⟨hentry, hnames⟩, ?_⟩
    · rw [hbytes, hrest, List.flatMap_cons]
    · rw [htypes, List.nodup_cons]
      exact ⟨fun hmem => hfresh _ hmem List.mem_cons_self, hnodup⟩
    · rw [htypes, List.forall_mem_cons]
      exact ⟨htype, fun bbsType hmem hold => hfresh bbsType hmem (List.mem_cons_of_mem _ hold)⟩
    · rw [hwords]
      exact hdistinct

/-- The first entry is what stands at the head of the bytes. -/
theorem continues_head {rest : List UInt8} {entries : List DevOrderEntry} :
    Continues journal types named (bbsType :: rest) entries ↔
      ¬ (EntryMalformed rest ∨ bbsType ∈ types) ∧
        (∀ word ∈ (DevOrderEntry.ofTail bbsType rest).words, NamesRow journal bbsType word) ∧
        ∃ entries', entries = DevOrderEntry.ofTail bbsType rest :: entries' ∧
          Continues journal (bbsType :: types) (named ++ (DevOrderEntry.ofTail bbsType rest).words)
            (rest.drop (entryLength rest)) entries' := by
  constructor
  · intro h
    cases entries with
    | nil => cases h.bytes_eq
    | cons entry entries =>
        obtain ⟨after, hbytes, hlength, htype, hnames, hrest⟩ := continues_cons.mp h
        obtain ⟨hsound, rfl, rfl⟩ := DevOrderEntry.head_iff.mp ⟨hbytes, hlength⟩
        exact ⟨not_or.mpr ⟨hsound, htype⟩, hnames, entries, rfl, hrest⟩
  · rintro ⟨hsound, hnames, entries', rfl, hrest⟩
    rw [not_or] at hsound
    obtain ⟨hbytes, hlength⟩ := DevOrderEntry.head_iff.mpr ⟨hsound.1, rfl, rfl⟩
    exact continues_cons.mpr ⟨_, hbytes, hlength, hsound.2, hnames, hrest⟩

/-- The bytes are scanned to the end exactly when they are entries. -/
theorem walkDevOrder_iff {bytes : List UInt8} (hnodup : (rowsOf named).Nodup) :
    walkDevOrder journal bytes (scanOf journal types named) = some scan ↔
      ∃ entries, Continues journal types named bytes entries ∧
        scan = scanOf journal ((typesOf entries).reverse ++ types) (named ++ wordsOf entries) := by
  induction hlength : bytes.length using Nat.strong_induction_on
    generalizing bytes types named scan with
  | _ length ih =>
  cases bytes with
  | nil =>
      rw [walkDevOrder, Option.some_inj]
      constructor
      · rintro rfl
        refine ⟨[], (continues_nil hnodup).mpr rfl, ?_⟩
        rw [wordsOf, List.flatMap_nil, List.append_nil]
        rfl
      · rintro ⟨entries, hentries, rfl⟩
        cases entries with
        | nil =>
            rw [wordsOf, List.flatMap_nil, List.append_nil]
            rfl
        | cons entry entries => cases hentries.bytes_eq
  | cons bbsType rest =>
      have htypes : ∀ entry entries, (typesOf (entry :: entries)).reverse ++ types =
          (typesOf entries).reverse ++ entry.bbsType :: types := by
        intro entry entries
        rw [typesOf, List.map_cons, List.reverse_cons, List.append_assoc]
        rfl
      have hwords : ∀ entry entries, named ++ wordsOf (entry :: entries) =
          named ++ entry.words ++ wordsOf entries := by
        intro entry entries
        rw [wordsOf, List.flatMap_cons, List.append_assoc]
        rfl
      rw [walkDevOrder]
      by_cases hbad : EntryMalformed rest ∨ bbsType ∈ (scanOf journal types named).seenType
      · rw [if_pos hbad]
        refine iff_of_false (by simp) ?_
        rintro ⟨entries, hentries, -⟩
        exact (continues_head.mp hentries).1 hbad
      rw [if_neg hbad, Option.bind_eq_some_iff]
      have hshorter : (rest.drop (entryLength rest)).length < length := by
        rw [List.length_cons] at hlength
        rw [List.length_drop]
        omega
      constructor
      · rintro ⟨next, hnext, hwalk⟩
        obtain ⟨hnames, hdistinct, rfl⟩ := (walkDevOrderData_iff hnodup).mp hnext
        obtain ⟨entries, hentries, rfl⟩ := (ih _ hshorter hdistinct rfl).mp hwalk
        refine ⟨_, continues_head.mpr ⟨hbad, hnames, entries, rfl, hentries⟩, ?_⟩
        rw [htypes, hwords]
        rfl
      · rintro ⟨entries, hentries, rfl⟩
        obtain ⟨-, hnames, entries', rfl, hrest⟩ := continues_head.mp hentries
        have hdistinct : (rowsOf (named ++ (DevOrderEntry.ofTail bbsType rest).words)).Nodup := by
          have hall := hrest.distinct
          rw [rowsOf_append] at hall
          exact (List.nodup_append'.mp hall).1
        refine ⟨_, (walkDevOrderData_iff hnodup).mpr ⟨hnames, hdistinct, rfl⟩, ?_⟩
        rw [htypes, hwords]
        exact (ih _ hshorter hdistinct rfl).mpr ⟨entries', hrest, rfl⟩

/-- The variable is a row of entries, each of its own type, that together name every row of valid priority
once. -/
structure UsableOrder (journal : List BbsTable) (bytes : List UInt8) (entries : List DevOrderEntry) :
    Prop where
  bytes_eq : bytes = entries.flatMap DevOrderEntry.bytes
  lengths : ∀ entry ∈ entries, entry.length < 2 ^ 16
  types : (typesOf entries).Nodup
  names : ∀ entry ∈ entries, ∀ word ∈ entry.words, NamesRow journal entry.bbsType word
  distinct : (rowsOf (wordsOf entries)).Nodup
  covers : ∀ index < journal.length,
    legacyBootBbsPriorityIsValid journal[index]!.bootPriority = true → index ∈ rowsOf (wordsOf entries)

theorem devOrderCovers_scanOf : devOrderCovers journal (scanOf journal types named) = true ↔
    ∀ index < journal.length,
      legacyBootBbsPriorityIsValid journal[index]!.bootPriority = decide (index ∈ rowsOf named) := by
  rw [devOrderCovers, beq_iff_eq, scanOf, List.ext_getElem_iff]
  constructor
  · rintro ⟨-, hsame⟩ index hindex
    have hplace := hsame index (by simpa using hindex) (by simpa using hindex)
    simpa [hindex] using hplace
  · intro hsame
    refine ⟨by simp, fun index hindex hindex' => ?_⟩
    rw [List.length_map] at hindex
    simpa [hindex] using hsame index hindex

theorem exists_row {entries : List DevOrderEntry} {index : Nat} (h : index ∈ rowsOf (wordsOf entries)) :
    ∃ entry ∈ entries, ∃ word ∈ entry.words, rowOf word = index := by
  obtain ⟨word, hword, hrow⟩ := List.mem_map.mp h
  obtain ⟨entry, hentry, hmem⟩ := List.mem_flatMap.mp hword
  exact ⟨entry, hentry, word, hmem, hrow⟩

/-- The variable is scanned to its end, and covers the table, exactly when it is of the format. -/
theorem walkLegacyDevOrder_iff {bytes : List UInt8} :
    walkLegacyDevOrder journal bytes = some scan ↔
      ∃ entries, UsableOrder journal bytes entries ∧
        scan = scanOf journal (typesOf entries).reverse (wordsOf entries) := by
  have hwalk := @walkDevOrder_iff journal [] [] scan bytes List.nodup_nil
  simp only [List.append_nil, List.nil_append] at hwalk
  rw [walkLegacyDevOrder, Option.filter_eq_some_iff, startScan_eq, hwalk]
  constructor
  · rintro ⟨⟨entries, hentries, rfl⟩, hcovers⟩
    rw [devOrderCovers_scanOf] at hcovers
    have hdistinct := hentries.distinct
    rw [List.nil_append] at hdistinct
    refine ⟨entries, ⟨hentries.bytes_eq, hentries.lengths, hentries.fresh.1, hentries.names, hdistinct, ?_⟩, rfl⟩
    intro index hindex hvalid
    rw [hcovers index hindex, decide_eq_true_iff] at hvalid
    exact hvalid
  · rintro ⟨entries, hentries, rfl⟩
    refine ⟨⟨entries, ⟨hentries.bytes_eq, hentries.lengths, ⟨hentries.types, by simp⟩, hentries.names, ?_⟩, rfl⟩, ?_⟩
    · rw [List.nil_append]
      exact hentries.distinct
    · rw [devOrderCovers_scanOf]
      intro index hindex
      rw [Bool.eq_iff_iff, decide_eq_true_iff]
      refine ⟨hentries.covers index hindex, fun hrow => ?_⟩
      obtain ⟨entry, hentry, word, hword, rfl⟩ := exists_row hrow
      exact (hentries.names entry hentry word hword).priority

/-! ### What is captured -/

/-- The rows are ranked as they are named, no other row is, and the disabled rows are those so marked. -/
structure RanksOf (journal : List BbsTable) (words : List UInt16) (ranks : List UInt16)
    (disabled : List Bool) : Prop where
  lengths : ranks.length = journal.length ∧ disabled.length = journal.length
  ranked : ∀ (rank : Nat) (hrank : rank < words.length), ranks[rowOf words[rank]]!.toNat = rank
  unranked : ∀ index < journal.length, index ∉ rowsOf words → ranks[index]! = 0xFFFF
  disabled : ∀ index < journal.length,
    disabled[index]! = true ↔ ∃ word ∈ words, rowOf word = index ∧ word &&& 0xFF00 = 0xFF00

theorem UsableOrder.inRange {bytes : List UInt8} {entries : List DevOrderEntry}
    (h : UsableOrder journal bytes entries) : ∀ index ∈ rowsOf (wordsOf entries), index < journal.length := by
  intro index hindex
  obtain ⟨entry, hentry, word, hword, rfl⟩ := exists_row hindex
  exact (h.names entry hentry word hword).inRange

theorem UsableOrder.ranksOf {bytes : List UInt8} {entries : List DevOrderEntry}
    (h : UsableOrder journal bytes entries) (hmax : journal.length ≤ maxBbsEntries) :
    RanksOf journal (wordsOf entries) (scanOf journal types (wordsOf entries)).ranks
      (scanOf journal types (wordsOf entries)).disabled := by
  have hinRange := h.inRange
  have hdistinct := h.distinct
  generalize wordsOf entries = words at hinRange hdistinct
  have hcount : words.length ≤ journal.length := by
    have hsubset : rowsOf words ⊆ List.range journal.length := fun index hindex =>
      List.mem_range.mpr (hinRange index hindex)
    have hle := (List.Nodup.subperm hdistinct hsubset).length_le
    rwa [rowsOf, List.length_map, List.length_range] at hle
  refine ⟨by simp [scanOf], fun rank hrank => ?_, fun index hindex hrow => ?_, fun index hindex => ?_⟩
  · have hmem : rowOf words[rank] ∈ rowsOf words := List.mem_map_of_mem (List.getElem_mem hrank)
    have hidx : (rowsOf words).idxOf (rowOf words[rank]) = rank := by
      have hrank' : rank < (rowsOf words).length := by
        rwa [rowsOf, List.length_map]
      have hget : rowOf words[rank] = (rowsOf words)[rank] := by
        simp [rowsOf]
      rw [hget, hdistinct.idxOf_getElem]
    have hsmall : rank < 2 ^ 16 := by
      have hmaximum : maxBbsEntries = 256 := rfl
      omega
    simp only [scanOf, List.getElem!_eq_getElem?_getD, List.getElem?_map,
      List.getElem?_range (hinRange _ hmem), Option.map_some, Option.getD_some]
    rw [if_pos hmem, hidx, UInt16.toNat_ofNat', Nat.mod_eq_of_lt hsmall]
  · simp only [scanOf, List.getElem!_eq_getElem?_getD, List.getElem?_map, List.getElem?_range hindex,
      Option.map_some, Option.getD_some]
    rw [if_neg hrow]
  · simp only [scanOf, List.getElem!_eq_getElem?_getD, List.getElem?_map, List.getElem?_range hindex,
      Option.map_some, Option.getD_some]
    rw [decide_eq_true_iff, rowsOf, List.mem_map]
    constructor
    · rintro ⟨word, hword, hrow⟩
      rw [List.mem_filter, isDisabledWord, beq_iff_eq] at hword
      exact ⟨word, hword.1, hrow, hword.2⟩
    · rintro ⟨word, hword, hrow, hmark⟩
      refine ⟨word, List.mem_filter.mpr ⟨hword, ?_⟩, hrow⟩
      rw [isDisabledWord, beq_iff_eq]
      exact hmark

end

end CsmVgaSelector
