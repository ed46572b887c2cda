import CsmVgaSelector.Bbs.BootOption
import Mathlib.Data.List.Basic
import Mathlib.Data.Nat.Init

/-!
# Which Boot#### options are accepted

An option is accepted exactly when its description ends inside the variable and is followed by a path of the
length it gives, made of one BBS node and the end of the path. What is kept are those parts of the variable,
and nothing outside it is read.
-/

namespace CsmVgaSelector

open Peek

section

variable {bytes path : List UInt8} {offset count nodeLength descriptionBytes characters : Nat}

/-! ### Parts of a buffer -/

def InBytes (bytes : List UInt8) (offset : Nat) : Prop := offset < bytes.length

def byteAt (bytes : List UInt8) (offset : Nat) : UInt8 := bytes[offset]!

def slice (bytes : List UInt8) (offset count : Nat) : List UInt8 := (bytes.drop offset).take count

def wordsAt (bytes : List UInt8) (offset count : Nat) : List UInt16 :=
  (List.range count).map fun index => readLe16 bytes (offset + 2 * index)

theorem slice_succ (h : offset < bytes.length) :
    slice bytes offset (count + 1) = bytes[offset]! :: slice bytes (offset + 1) count := by
  rw [slice, slice, List.drop_eq_getElem_cons h, List.take_succ_cons]
  simp [h]

theorem slice_length (h : offset + count ≤ bytes.length) : (slice bytes offset count).length = count := by
  rw [slice, List.length_take, List.length_drop]
  omega

theorem slice_getElem! {index : Nat} (hindex : index < count) :
    (slice bytes offset count)[index]! = bytes[offset + index]! := by
  simp only [slice, List.getElem!_eq_getElem?_getD]
  rw [List.getElem?_take_of_lt hindex, List.getElem?_drop]

theorem wordsAt_succ :
    wordsAt bytes offset (count + 1) = readLe16 bytes offset :: wordsAt bytes (offset + 2) count := by
  rw [wordsAt, wordsAt, List.range_succ_eq_map, List.map_cons, List.map_map]
  refine congrArg (_ :: ·) (List.map_congr_left fun index _ => ?_)
  exact congrArg (readLe16 bytes) (by simp only [Nat.succ_eq_add_one]; omega)

theorem peekWord_yields (h : offset + 2 ≤ bytes.length) :
    Yields (InBytes bytes) (byteAt bytes) (peekWord offset) (readLe16 bytes offset) := by
  have hlow : InBytes bytes offset := Nat.lt_of_lt_of_le (by omega) h
  have hhigh : InBytes bytes (offset + 1) := Nat.lt_of_lt_of_le (by omega) h
  exact Yields.bind_peek hlow (Yields.bind_peek hhigh Yields.pure)

theorem peekBytes_yields (h : offset + count ≤ bytes.length) :
    Yields (InBytes bytes) (byteAt bytes) (peekBytes offset count) (slice bytes offset count) := by
  induction count generalizing offset with
  | zero => exact Yields.pure
  | succ count ih =>
      have hhere : offset < bytes.length := by omega
      rw [peekBytes, slice_succ hhere]
      exact Yields.bind_peek hhere (Yields.bind (ih (by omega)) Yields.pure)

theorem peekWords_yields (h : offset + 2 * count ≤ bytes.length) :
    Yields (InBytes bytes) (byteAt bytes) (peekWords offset count) (wordsAt bytes offset count) := by
  induction count generalizing offset with
  | zero => exact Yields.pure
  | succ count ih =>
      rw [peekWords, wordsAt_succ]
      exact Yields.bind (peekWord_yields (by omega)) (Yields.bind (ih (by omega)) Yields.pure)

theorem peekHasZero_decides (h : offset + count ≤ bytes.length) :
    Decides (InBytes bytes) (byteAt bytes) (peekHasZero offset count) (0 ∈ slice bytes offset count) := by
  induction count generalizing offset with
  | zero => exact Decides.pure (by simp [slice])
  | succ count ih =>
      have hhere : offset < bytes.length := by omega
      rw [peekHasZero, slice_succ hhere, List.mem_cons]
      refine Decides.bind (Yields.peek hhere) ?_
      change Decides _ _ (if bytes[offset]! = 0 then _ else _) _
      by_cases hzero : bytes[offset]! = 0
      · rw [if_pos hzero]
        exact Decides.pure (iff_of_true rfl (.inl hzero.symm))
      · rw [if_neg hzero]
        exact (ih (by omega)).congr (or_iff_right (Ne.symm hzero)).symm

/-! ### Device paths -/

/-- One node of the walk. -/
theorem validDevicePathNodes_drop {sawEnd : Bool} (h : offset < path.length) :
    validDevicePathNodes (path.drop offset) sawEnd =
      if path.length - offset < 4 ∨ (readLe16 path (offset + 2)).toNat < 4 ∨
          (readLe16 path (offset + 2)).toNat > path.length - offset then false
      else if path[offset]! = endDevicePathType then
        if (readLe16 path (offset + 2)).toNat ≠ 4 then false
        else if path[offset + 1]! = endEntireDevicePathSubtype then
          if offset + 4 ≠ path.length then false
          else validDevicePathNodes (path.drop (offset + (readLe16 path (offset + 2)).toNat)) true
        else if path[offset + 1]! = endInstanceDevicePathSubtype then
          validDevicePathNodes (path.drop (offset + (readLe16 path (offset + 2)).toNat)) sawEnd
        else false
      else validDevicePathNodes (path.drop (offset + (readLe16 path (offset + 2)).toNat)) sawEnd := by
  have htype : path[offset]! = path[offset] := by simp [h]
  have hsub : (path.drop (offset + 1))[0]! = path[offset + 1]! := by
    simp only [List.getElem!_eq_getElem?_getD, List.getElem?_drop, Nat.add_zero]
  have hword : readLe16 (path.drop (offset + 1)) 1 = readLe16 path (offset + 2) := readLe16_drop
  rw [List.drop_eq_getElem_cons h, validDevicePathNodes, hsub, hword, htype]
  generalize (readLe16 path (offset + 2)).toNat = nodeLength
  rw [List.length_drop]
  by_cases hbad : path.length - offset < 4 ∨ nodeLength < 4 ∨ nodeLength > path.length - offset
  · rw [if_pos hbad, if_pos (by omega)]
  · have hdrop : (path.drop (offset + 1)).drop (nodeLength - 1) = path.drop (offset + nodeLength) := by
      rw [List.drop_drop]
      congr 1
      omega
    have hend : path.length - (offset + 1) ≠ 3 ↔ offset + 4 ≠ path.length := by omega
    rw [if_neg hbad, if_neg (by omega), hdrop]
    simp only [hend]

theorem peekDevicePathNodes_yields {sawEnd : Bool} (h : offset ≤ path.length) :
    Yields (InBytes path) (byteAt path) (peekDevicePathNodes path.length offset sawEnd)
      (validDevicePathNodes (path.drop offset) sawEnd) := by
  induction hleft : path.length - offset using Nat.strong_induction_on generalizing offset sawEnd with
  | _ left ih =>
  rw [peekDevicePathNodes]
  by_cases hin : offset < path.length
  swap
  · rw [if_neg hin, List.drop_eq_nil_of_le (Nat.not_lt.mp hin), validDevicePathNodes]
    exact Yields.pure
  rw [if_pos hin, validDevicePathNodes_drop hin]
  by_cases hshort : path.length - offset < 4
  · rw [if_pos hshort, if_pos (.inl hshort)]
    exact Yields.pure
  rw [if_neg hshort]
  have hsecond : offset + 1 < path.length := by omega
  refine Yields.bind_peek hin (Yields.bind_peek hsecond (Yields.bind (peekWord_yields (by omega)) ?_))
  have hfour : readLe16 path (offset + 2) ≠ 4 ↔ (readLe16 path (offset + 2)).toNat ≠ 4 := by
    rw [ne_eq, ne_eq, ← UInt16.toNat_inj]
    rfl
  rw [dite_eq_ite]
  refine Yields.branch (by omega) fun hlength => ?_
  have hrest : ∀ {sawEnd}, Yields (InBytes path) (byteAt path)
      (peekDevicePathNodes path.length (offset + (readLe16 path (offset + 2)).toNat) sawEnd)
      (validDevicePathNodes (path.drop (offset + (readLe16 path (offset + 2)).toNat)) sawEnd) :=
    ih _ (by omega) (by omega) rfl
  change Yields _ _ (if path[offset]! = endDevicePathType then _ else _) _
  by_cases htype : path[offset]! = endDevicePathType
  swap
  · rw [if_neg htype, if_neg htype]
    exact hrest
  rw [if_pos htype, if_pos htype]
  refine Yields.branch hfour fun hsame => ?_
  rw [hfour, not_not] at hsame
  change Yields _ _ (if path[offset + 1]! = endEntireDevicePathSubtype then _ else _) _
  by_cases hentire : path[offset + 1]! = endEntireDevicePathSubtype
  · rw [if_pos hentire, if_pos hentire]
    exact Yields.branch (by rw [hsame]) fun _ => hrest
  rw [if_neg hentire, if_neg hentire]
  change Yields _ _ (if path[offset + 1]! = endInstanceDevicePathSubtype then _ else _) _
  by_cases hinstance : path[offset + 1]! = endInstanceDevicePathSubtype
  · rw [if_pos hinstance, if_pos hinstance]
    exact hrest
  · rw [if_neg hinstance, if_neg hinstance]
    exact Yields.pure

theorem peekValidateDevicePathList_yields :
    Yields (InBytes path) (byteAt path) (peekValidateDevicePathList path.length)
      (legacyBootValidateDevicePathList path) := by
  unfold peekValidateDevicePathList legacyBootValidateDevicePathList
  refine Yields.branch Iff.rfl fun _ => ?_
  have hnodes := @peekDevicePathNodes_yields path 0 false (Nat.zero_le _)
  rw [List.drop_zero] at hnodes
  refine Yields.guard (Decides.of_yields hnodes) (fun hvalid => ?_) fun hvalid => if_neg hvalid
  rw [if_pos hvalid]
  exact Yields.pure

theorem peekIsEndEntire_decides (h : offset + 4 ≤ path.length) :
    Decides (InBytes path) (byteAt path) (peekIsEndEntire offset)
      (path[offset]! = endDevicePathType ∧ path[offset + 1]! = endEntireDevicePathSubtype ∧
        readLe16 path (offset + 2) = 4) := by
  have hfirst : offset < path.length := by omega
  have hsecond : offset + 1 < path.length := by omega
  unfold peekIsEndEntire
  refine Decides.bind (Yields.peek hfirst) ?_
  change Decides _ _ (if path[offset]! ≠ endDevicePathType then _ else _) _
  by_cases htype : path[offset]! = endDevicePathType
  swap
  · rw [if_pos htype]
    exact Decides.pure (iff_of_false Bool.false_ne_true fun h => htype h.1)
  rw [if_neg (not_not.mpr htype), and_iff_right htype]
  refine Decides.bind (Yields.peek hsecond) ?_
  change Decides _ _ (if path[offset + 1]! ≠ endEntireDevicePathSubtype then _ else _) _
  by_cases hsub : path[offset + 1]! = endEntireDevicePathSubtype
  swap
  · rw [if_pos hsub]
    exact Decides.pure (iff_of_false Bool.false_ne_true fun h => hsub h.1)
  rw [if_neg (not_not.mpr hsub), and_iff_right hsub]
  exact Decides.bind (peekWord_yields (by omega)) (Decides.pure beq_iff_eq)

/-- The string of a BBS node of this length. -/
def bbsText (path : List UInt8) (nodeLength : Nat) : List UInt8 := slice path 8 (nodeLength - 9)

theorem peekBbsString_yields (hlength : 9 ≤ nodeLength) (h : nodeLength ≤ path.length) :
    Yields (InBytes path) (byteAt path) (peekBbsString nodeLength descriptionBytes)
      (if path[nodeLength - 1]! ≠ 0 ∨ 0 ∈ bbsText path nodeLength then .error .compromisedData
        else if nodeLength - 8 > descriptionBytes then .error .badBufferSize
        else .ok (bbsText path nodeLength)) := by
  have hlast : nodeLength - 1 < path.length := by omega
  unfold peekBbsString
  refine Yields.bind_peek hlast (Yields.unless (fun hzero => ?_) fun hzero => if_pos (.inl hzero))
  have hzero' : path[nodeLength - 1]! = 0 := not_not.mp hzero
  have hbound : 8 + (nodeLength - 9) ≤ path.length := by omega
  refine Yields.bind ⟨(peekHasZero_decides hbound).within, rfl⟩ ?_
  refine Yields.unless (fun hnone => ?_) fun hsome => ?_
  · rw [(peekHasZero_decides hbound).run_iff] at hnone
    have hsound : ¬ (path[nodeLength - 1]! ≠ 0 ∨ 0 ∈ bbsText path nodeLength) :=
      not_or.mpr ⟨not_not.mpr hzero', hnone⟩
    simp only [if_neg hsound]
    exact Yields.branch Iff.rfl fun _ => Yields.bind (peekBytes_yields hbound) Yields.pure
  · rw [(peekHasZero_decides hbound).run_iff] at hsome
    exact if_pos (.inr hsome)

theorem peekValidateExactBbsDevicePath_yields :
    Yields (InBytes path) (byteAt path) (peekValidateExactBbsDevicePath path.length descriptionBytes)
      (legacyBootValidateExactBbsDevicePath path descriptionBytes) := by
  have htext : (path.take ((readLe16 path 2).toNat - 1)).drop 8 = bbsText path (readLe16 path 2).toNat := by
    rw [List.drop_take, bbsText, slice, Nat.sub_sub]
  unfold peekValidateExactBbsDevicePath legacyBootValidateExactBbsDevicePath
  dsimp only
  rw [htext]
  refine Yields.bind peekValidateDevicePathList_yields (Yields.branch Iff.rfl fun hvalid => ?_)
  have hsize : 4 ≤ path.length := by
    by_contra hshort
    rw [legacyBootValidateDevicePathList, if_pos (by omega)] at hvalid
    exact hvalid rfl
  have hfirst : InBytes path 0 := Nat.lt_of_lt_of_le (by decide) hsize
  have hsecond : InBytes path 1 := Nat.lt_of_lt_of_le (by decide) hsize
  refine Yields.bind_peek hfirst (Yields.bind_peek hsecond (Yields.branch Iff.rfl fun _ => ?_))
  refine Yields.branch Iff.rfl fun hlong => ?_
  refine Yields.bind (peekWord_yields (by omega)) ?_
  generalize (readLe16 path 2).toNat = nodeLength
  refine Yields.unless (fun hlength => ?_) fun hlength => if_pos (by omega)
  refine Yields.guard (peekIsEndEntire_decides (by omega)) (fun hend => ?_) fun hend => if_pos ?_
  · obtain ⟨hendType, hendSub, hendLength⟩ := hend
    have hsound : ¬ (nodeLength < 9 ∨ nodeLength + 4 ≠ path.length ∨
        path[nodeLength]! ≠ endDevicePathType ∨ path[nodeLength + 1]! ≠ endEntireDevicePathSubtype ∨
        readLe16 path (nodeLength + 2) ≠ 4) := by
      simp only [hendType, hendSub, hendLength, ne_eq, not_true_eq_false, or_false]
      exact hlength
    rw [if_neg hsound]
    refine Yields.bind (peekBbsString_yields (by omega) (by omega)) ?_
    by_cases hzero : path[nodeLength - 1]! ≠ 0 ∨ 0 ∈ bbsText path nodeLength
    · rw [if_pos hzero, if_pos hzero]
      exact Yields.pure
    rw [if_neg hzero, if_neg hzero]
    by_cases hroom : nodeLength - 8 > descriptionBytes
    · rw [if_pos hroom, if_pos hroom]
      exact Yields.pure
    rw [if_neg hroom, if_neg hroom]
    exact Yields.bind (peekWord_yields (by omega)) (Yields.bind (peekWord_yields (by omega)) Yields.pure)
  · rw [not_and_or, not_and_or] at hend
    exact .inr (.inr hend)

/-- The path is one BBS node with its string, and the node that ends the path. -/
structure BbsPath (path : List UInt8) : Prop where
  node : path[0]! = bbsDevicePathType ∧ path[1]! = bbsBbsDp
  nodeLength : 9 ≤ (readLe16 path 2).toNat
  terminator : path[(readLe16 path 2).toNat - 1]! = 0
  text : 0 ∉ bbsText path (readLe16 path 2).toNat
  room : (readLe16 path 2).toNat - 8 ≤ maxStringBytes + 1
  end_ : path.drop (readLe16 path 2).toNat = [endDevicePathType, endEntireDevicePathSubtype, 4, 0]

theorem endEntire_iff : path.drop offset = [endDevicePathType, endEntireDevicePathSubtype, 4, 0] ↔
    offset + 4 = path.length ∧ path[offset]! = endDevicePathType ∧
      path[offset + 1]! = endEntireDevicePathSubtype ∧ readLe16 path (offset + 2) = 4 := by
  have hword : readLe16 path (offset + 2) = 4 ↔ path[offset + 2]! = 4 ∧ path[offset + 3]! = 0 := by
    have hlow := path[offset + 2]!.toNat_lt
    rw [readLe16_eq_iff, ← UInt8.toNat_inj, ← UInt8.toNat_inj]
    change path[offset + 2]!.toNat + 256 * path[offset + 3]!.toNat = 4 ↔ _ = 4 ∧ _ = 0
    omega
  have hat : ∀ index, path[offset + index]! = (path.drop offset)[index]! := by
    intro index
    simp only [List.getElem!_eq_getElem?_getD, List.getElem?_drop]
  have hlength : offset + 4 = path.length ↔ (path.drop offset).length = 4 := by
    rw [List.length_drop]
    omega
  have hzero : path[offset]! = (path.drop offset)[0]! := hat 0
  rw [hword, hlength, hzero, hat, hat, hat]
  generalize path.drop offset = rest
  constructor
  · rintro rfl
    exact ⟨rfl, rfl, rfl, rfl, rfl⟩
  · rintro ⟨hfour, hfirst, hsecond, hthird, hfourth⟩
    match rest, hfour with
    | [byte0, byte1, byte2, byte3], _ =>
        obtain rfl : byte0 = _ := hfirst
        obtain rfl : byte1 = _ := hsecond
        obtain rfl : byte2 = _ := hthird
        obtain rfl : byte3 = _ := hfourth
        rfl

/-- The walk goes over the two nodes. -/
theorem BbsPath.valid (h : BbsPath path) : legacyBootValidateDevicePathList path = .success := by
  obtain ⟨hlength, htype, hsub, hword⟩ := endEntire_iff.mp h.end_
  have hnode := h.nodeLength
  have hnodeType : path[0]! ≠ endDevicePathType := by
    rw [h.node.1]
    decide
  have hfirst := @validDevicePathNodes_drop path 0 false (by omega)
  rw [List.drop_zero, Nat.zero_add, Nat.zero_add, Nat.zero_add, if_neg (by omega), if_neg hnodeType] at hfirst
  have hfour : (readLe16 path ((readLe16 path 2).toNat + 2)).toNat = 4 := by
    rw [hword]
    rfl
  have hsecond := @validDevicePathNodes_drop path (readLe16 path 2).toNat false (by omega)
  rw [hfour, if_neg (by omega), if_pos htype, if_neg (by decide), if_pos hsub, if_neg (by omega), hlength,
    List.drop_length] at hsecond
  rw [legacyBootValidateDevicePathList, if_neg (by omega), if_pos]
  rw [hfirst, Nat.zero_add, hsecond, validDevicePathNodes]

theorem exactBbsPath_iff {result : UInt16 × UInt16 × List UInt8} :
    legacyBootValidateExactBbsDevicePath path (maxStringBytes + 1) = .ok result ↔
      BbsPath path ∧
        result = (readLe16 path 4, readLe16 path 6, bbsText path (readLe16 path 2).toNat) := by
  have htext : (path.take ((readLe16 path 2).toNat - 1)).drop 8 = bbsText path (readLe16 path 2).toNat := by
    rw [List.drop_take, bbsText, slice, Nat.sub_sub]
  unfold legacyBootValidateExactBbsDevicePath
  dsimp only
  rw [htext]
  constructor
  · intro h
    split at h
    case isTrue => cases h
    split at h
    case isTrue => cases h
    case isFalse hnode =>
    split at h
    case isTrue => cases h
    split at h
    case isTrue => cases h
    case isFalse hend =>
    split at h
    case isTrue => cases h
    case isFalse hzero =>
    split at h
    case isTrue => cases h
    case isFalse hroom =>
    cases h
    simp only [not_or, not_not, Nat.not_lt] at hnode hend hzero hroom
    obtain ⟨hlong, hlength, htype, hsub, hword⟩ := hend
    exact ⟨⟨hnode, hlong, hzero.1, hzero.2, hroom, endEntire_iff.mpr ⟨hlength, htype, hsub, hword⟩⟩, rfl⟩
  · rintro ⟨h, rfl⟩
    obtain ⟨hlength, htype, hsub, hword⟩ := endEntire_iff.mp h.end_
    have hnode := h.nodeLength
    have hroom := h.room
    have hsound : ¬ (path[(readLe16 path 2).toNat - 1]! ≠ 0 ∨ 0 ∈ bbsText path (readLe16 path 2).toNat) :=
      not_or.mpr ⟨not_not.mpr h.terminator, h.text⟩
    rw [h.valid, if_neg (by decide), if_neg (by simp [h.node]), if_neg (by omega), if_neg, if_neg hsound,
      if_neg (by omega)]
    simp only [htype, hsub, hword, ne_eq, not_true_eq_false, or_false]
    omega

/-! ### The option -/

def descriptionPlace (characters : Nat) : Nat := loadOptionFixedBytes + characters * 2

/-- The description from this character on ends before the variable does, after so many. -/
structure DescriptionEnds (bytes : List UInt8) (first characters : Nat) : Prop where
  from_ : first ≤ characters
  inside : descriptionPlace (characters + 1) ≤ bytes.length
  text : ∀ index, first ≤ index → index < characters → readLe16 bytes (descriptionPlace index) ≠ 0
  terminator : readLe16 bytes (descriptionPlace characters) = 0

theorem DescriptionEnds.unique {first characters' : Nat} (h : DescriptionEnds bytes first characters)
    (h' : DescriptionEnds bytes first characters') : characters = characters' := by
  rcases Nat.lt_trichotomy characters characters' with hlt | heq | hgt
  · exact absurd h.terminator (h'.text characters h.from_ hlt)
  · exact heq
  · exact absurd h'.terminator (h.text characters' h'.from_ hgt)

theorem peekDescriptionEnd_yields {first : Nat} :
    ∃ result, Yields (InBytes bytes) (byteAt bytes) (peekDescriptionEnd bytes.length first) result ∧
      ∀ characters, result = some characters ↔ DescriptionEnds bytes first characters := by
  induction hleft : bytes.length - first using Nat.strong_induction_on generalizing first with
  | _ left ih =>
  rw [peekDescriptionEnd]
  by_cases hin : loadOptionFixedBytes + (first + 1) * 2 ≤ bytes.length
  swap
  · rw [if_neg hin]
    refine ⟨none, Yields.pure, fun characters => iff_of_false (by simp) fun h => ?_⟩
    have hfrom := h.from_
    have hinside := h.inside
    unfold descriptionPlace at hinside
    omega
  rw [if_pos hin]
  have hword := @peekWord_yields bytes (descriptionPlace first) (by unfold descriptionPlace; omega)
  by_cases hzero : readLe16 bytes (descriptionPlace first) = 0
  · refine ⟨some first, Yields.bind hword ?_, fun characters => ?_⟩
    · rw [if_pos hzero]
      exact Yields.pure
    · constructor
      · rintro ⟨⟩
        exact ⟨Nat.le_refl _, hin, fun index hfrom hto => absurd hto (Nat.not_lt.mpr hfrom), hzero⟩
      · intro h
        refine congrArg some (DescriptionEnds.unique ?_ h)
        exact ⟨Nat.le_refl _, hin, fun index hfrom hto => absurd hto (Nat.not_lt.mpr hfrom), hzero⟩
  · obtain ⟨result, hyields, hresult⟩ := ih (bytes.length - (first + 1)) (by omega) rfl
    refine ⟨result, Yields.bind hword ?_, fun characters => (hresult characters).trans ?_⟩
    · rw [if_neg hzero]
      exact hyields
    · constructor
      · rintro ⟨hfrom, hinside, htext, hterminator⟩
        refine ⟨by omega, hinside, fun index hfirst hto => ?_, hterminator⟩
        rcases Nat.eq_or_lt_of_le hfirst with rfl | hfirst
        · exact hzero
        · exact htext index hfirst hto
      · rintro ⟨hfrom, hinside, htext, hterminator⟩
        have hne : first ≠ characters := by
          rintro rfl
          exact hzero hterminator
        exact ⟨by omega, hinside, fun index hfirst => htext index (by omega), hterminator⟩

/-- Where the path begins, after a description of so many characters. -/
def pathPlace (characters : Nat) : Nat := descriptionPlace (characters + 1)

def pathBytes (bytes : List UInt8) : Nat := (readLe16 bytes 4).toNat

def pathOf (bytes : List UInt8) (characters : Nat) : List UInt8 :=
  slice bytes (pathPlace characters) (pathBytes bytes)

def optionalDataOf (bytes : List UInt8) (characters : Nat) : List UInt8 :=
  bytes.drop (pathPlace characters + pathBytes bytes)

/-- `LegacyBootReadLe32` of a buffer. -/
def readLe32 (bytes : List UInt8) (offset : Nat) : UInt32 :=
  bytes[offset]!.toUInt32 ||| bytes[offset + 1]!.toUInt32 <<< 8 ||| bytes[offset + 2]!.toUInt32 <<< 16 |||
    bytes[offset + 3]!.toUInt32 <<< 24

/-- A load option whose description has so many characters: its attributes, the length of its path, the
description, the path, and its optional data up to the end. -/
structure LoadOption (bytes : List UInt8) (characters : Nat) : Prop where
  description : DescriptionEnds bytes 0 characters
  path : pathPlace characters + pathBytes bytes ≤ bytes.length
  bbs : BbsPath (pathOf bytes characters)

/-- The parts of the option. -/
def optionCandidate (number : UInt16) (bytes : List UInt8) (characters : Nat) : BootCandidate where
  isLegacy := true
  isActive := readLe32 bytes 0 &&& loadOptionActive != 0
  number := number
  attributes := readLe32 bytes 0
  description := some (wordsAt bytes loadOptionFixedBytes (characters + 1))
  devicePath := some (pathOf bytes characters)
  devicePathCrc32 := legacyBootCrc32 (pathOf bytes characters)
  bbsDeviceType := readLe16 (pathOf bytes characters) 4
  bbsStatusFlag := readLe16 (pathOf bytes characters) 6
  bbsDescription := bbsText (pathOf bytes characters) (readLe16 (pathOf bytes characters) 2).toNat
  optionalData :=
    if optionalDataOf bytes characters = [] then none else some (optionalDataOf bytes characters)
  optionalDataCrc32 := legacyBootCrc32 (optionalDataOf bytes characters)

/-- A program over a path, run on the path where it stands. -/
theorem yields_through {α : Type} {m : OptionRead α} {value : α} {place : Nat}
    (hinside : place + count ≤ bytes.length)
    (h : Yields (InBytes (slice bytes place count)) (byteAt (slice bytes place count)) m value) :
    Yields (InBytes bytes) (byteAt bytes) (m.through (place + ·)) value := by
  have hlength : (slice bytes place count).length = count := slice_length hinside
  refine Yields.through ((h.agree fun index hindex => ?_).mono fun index hindex => ?_)
  · rw [InBytes, hlength] at hindex
    exact slice_getElem! hindex
  · rw [InBytes, hlength] at hindex
    exact Nat.lt_of_lt_of_le (Nat.add_lt_add_left hindex place) hinside

theorem peekDoubleWord_yields (h : 4 ≤ bytes.length) :
    Yields (InBytes bytes) (byteAt bytes) (peekDoubleWord 0) (readLe32 bytes 0) := by
  have hbyte : ∀ index < 4, InBytes bytes index := fun index hindex => Nat.lt_of_lt_of_le hindex h
  exact Yields.bind_peek (hbyte 0 (by decide)) (Yields.bind_peek (hbyte 1 (by decide))
    (Yields.bind_peek (hbyte 2 (by decide)) (Yields.bind_peek (hbyte 3 (by decide)) Yields.pure)))

theorem optionalDataOf_eq :
    slice bytes (pathPlace characters + pathBytes bytes)
        (bytes.length - (pathPlace characters + pathBytes bytes)) = optionalDataOf bytes characters := by
  rw [slice, optionalDataOf, ← List.length_drop, List.take_length]

/-- The option as the check of its copied path judges it. -/
def judgedOption (number : UInt16) (bytes : List UInt8) (characters : Nat) :
    Except EfiStatus BootCandidate :=
  match legacyBootValidateExactBbsDevicePath (pathOf bytes characters) (maxStringBytes + 1) with
  | .error status => .error status
  | .ok _ => .ok (optionCandidate number bytes characters)

theorem judgedOption_iff {number : UInt16} {candidate : BootCandidate} :
    judgedOption number bytes characters = .ok candidate ↔
      BbsPath (pathOf bytes characters) ∧ candidate = optionCandidate number bytes characters := by
  unfold judgedOption
  cases hresult : legacyBootValidateExactBbsDevicePath (pathOf bytes characters) (maxStringBytes + 1) with
  | error status =>
      refine iff_of_false (by simp) fun hoption => ?_
      have haccepted := exactBbsPath_iff.mpr ⟨hoption.1, rfl⟩
      rw [hresult] at haccepted
      cases haccepted
  | ok result =>
      obtain ⟨hbbs, -⟩ := exactBbsPath_iff.mp hresult
      constructor
      · rintro ⟨⟩
        exact ⟨hbbs, rfl⟩
      · rintro ⟨-, rfl⟩
        rfl

theorem peekOptionCopies_yields {number : UInt16}
    (hpath : pathPlace characters + pathBytes bytes ≤ bytes.length) :
    Yields (InBytes bytes) (byteAt bytes)
      (peekOptionCopies number (readLe32 bytes 0) bytes.length characters (pathBytes bytes))
      (judgedOption number bytes characters) := by
  have hplace : loadOptionFixedBytes + 2 * (characters + 1) = pathPlace characters := by
    rw [pathPlace, descriptionPlace, Nat.mul_comm]
  have hlength : (pathOf bytes characters).length = pathBytes bytes := slice_length hpath
  have hvalidate := @peekValidateExactBbsDevicePath_yields (pathOf bytes characters) (maxStringBytes + 1)
  rw [hlength] at hvalidate
  have hoptional := @peekBytes_yields bytes (pathPlace characters + pathBytes bytes)
    (bytes.length - (pathPlace characters + pathBytes bytes)) (by omega)
  rw [optionalDataOf_eq] at hoptional
  refine Yields.bind (peekWords_yields (by omega)) (Yields.bind (peekBytes_yields hpath)
    (Yields.bind hoptional (Yields.bind (yields_through hpath hvalidate) ?_)))
  unfold judgedOption
  cases hresult : legacyBootValidateExactBbsDevicePath (pathOf bytes characters) (maxStringBytes + 1) with
  | error status => exact Yields.pure
  | ok result =>
      obtain ⟨-, rfl⟩ := exactBbsPath_iff.mp hresult
      exact Yields.pure

def allPools : OptionPools := ⟨true, true, true⟩

/-- The checks before the copies are passed by every option whose path is accepted. -/
theorem BbsPath.prechecks (h : BbsPath path) :
    path.length ≠ 0 ∧ ¬ (legacyBootValidateDevicePathList path).isError ∧
      path[0]! = bbsDevicePathType ∧ path[1]! = bbsBbsDp := by
  refine ⟨?_, ?_, h.node⟩
  · have hlength := (endEntire_iff.mp h.end_).1
    omega
  · rw [h.valid]
    decide

/-- An option whose description is known to end here is judged by its path. -/
theorem LoadOption.of_description {number : UInt16} {result : Except EfiStatus BootCandidate}
    (hdescription : DescriptionEnds bytes 0 characters)
    (h : ∀ candidate, result = .ok candidate ↔
      LoadOption bytes characters ∧ candidate = optionCandidate number bytes characters)
    (candidate : BootCandidate) :
    result = .ok candidate ↔
      ∃ characters, LoadOption bytes characters ∧ candidate = optionCandidate number bytes characters := by
  rw [h]
  constructor
  · intro hoption
    exact ⟨characters, hoption⟩
  · rintro ⟨characters', hoption, hcandidate⟩
    obtain rfl : characters' = characters := hoption.description.unique hdescription
    exact ⟨hoption, hcandidate⟩

/-- A refused option is none. -/
theorem LoadOption.refused {number : UInt16} {status : EfiStatus} (h : ¬ LoadOption bytes characters)
    (candidate : BootCandidate) :
    (.error status : Except EfiStatus BootCandidate) = .ok candidate ↔
      LoadOption bytes characters ∧ candidate = optionCandidate number bytes characters :=
  iff_of_false (by simp) fun hoption => h hoption.1

theorem peekOptionPath_yields {number : UInt16} (hdescription : DescriptionEnds bytes 0 characters) :
    ∃ result, Yields (InBytes bytes) (byteAt bytes)
        (peekOptionPath allPools number (readLe32 bytes 0) bytes.length characters (pathBytes bytes))
        result ∧
      ∀ candidate, result = .ok candidate ↔
        LoadOption bytes characters ∧ candidate = optionCandidate number bytes characters := by
  have hplace : loadOptionFixedBytes + (characters + 1) * 2 = pathPlace characters := rfl
  have hinside : pathPlace characters ≤ bytes.length := hdescription.inside
  unfold peekOptionPath
  dsimp only
  rw [hplace]
  by_cases hsizes : pathBytes bytes = 0 ∨ pathPlace characters > bytes.length ∨
      pathBytes bytes > bytes.length - pathPlace characters
  · rw [if_pos hsizes]
    refine ⟨_, Yields.pure, LoadOption.refused fun hoption => ?_⟩
    have hpath := hoption.path
    have hbbs := hoption.bbs.prechecks.1
    rw [pathOf, slice_length hpath] at hbbs
    omega
  rw [if_neg hsizes]
  have hpath : pathPlace characters + pathBytes bytes ≤ bytes.length := by omega
  have hlength : (pathOf bytes characters).length = pathBytes bytes := slice_length hpath
  have hlist := @peekValidateDevicePathList_yields (pathOf bytes characters)
  rw [hlength] at hlist
  have hwalk := yields_through hpath hlist
  by_cases hvalid : (legacyBootValidateDevicePathList (pathOf bytes characters)).isError
  · refine ⟨.error (legacyBootValidateDevicePathList (pathOf bytes characters)), hwalk.bind ?_,
      LoadOption.refused fun hoption => hoption.bbs.prechecks.2.1 hvalid⟩
    rw [if_pos hvalid]
    exact Yields.pure
  have hfour : 4 ≤ pathBytes bytes := by
    by_contra hshort
    rw [legacyBootValidateDevicePathList, if_pos (by omega)] at hvalid
    exact hvalid rfl
  have htype : bytes[pathPlace characters]! = (pathOf bytes characters)[0]! := by
    rw [pathOf, slice_getElem! (by omega), Nat.add_zero]
  have hsub : bytes[pathPlace characters + 1]! = (pathOf bytes characters)[1]! := by
    rw [pathOf, slice_getElem! (by omega)]
  have hfirst : InBytes bytes (pathPlace characters) := Nat.lt_of_lt_of_le (by omega) hpath
  have hsecond : InBytes bytes (pathPlace characters + 1) := Nat.lt_of_lt_of_le (by omega) hpath
  by_cases hnode : (pathOf bytes characters)[0]! ≠ bbsDevicePathType ∨
      (pathOf bytes characters)[1]! ≠ bbsBbsDp
  · refine ⟨.error .unsupported, hwalk.bind ?_, LoadOption.refused fun hoption => ?_⟩
    · rw [if_neg hvalid]
      refine Yields.bind_peek hfirst (Yields.bind_peek hsecond ?_)
      rw [byteAt, byteAt, htype, hsub, if_pos hnode]
      exact Yields.pure
    · obtain ⟨-, -, hbbs, hbbs'⟩ := hoption.bbs.prechecks
      exact hnode.elim (· hbbs) (· hbbs')
  refine ⟨judgedOption number bytes characters, hwalk.bind ?_, fun candidate => ?_⟩
  · rw [if_neg hvalid]
    refine Yields.bind_peek hfirst (Yields.bind_peek hsecond ?_)
    rw [byteAt, byteAt, htype, hsub, if_neg hnode, if_neg (by simp [allPools])]
    exact peekOptionCopies_yields hpath
  · rw [judgedOption_iff]
    exact and_congr_left' ⟨fun hbbs => ⟨hdescription, hpath, hbbs⟩, LoadOption.bbs⟩

theorem peekParseLegacyBootOption_yields {number : UInt16} :
    ∃ result, Yields (InBytes bytes) (byteAt bytes)
        (peekParseLegacyBootOption allPools number bytes.length) result ∧
      ∀ candidate, result = .ok candidate ↔
        ∃ characters, LoadOption bytes characters ∧ candidate = optionCandidate number bytes characters := by
  unfold peekParseLegacyBootOption
  by_cases hshort : bytes.length < loadOptionFixedBytes + 2
  · rw [if_pos hshort]
    refine ⟨_, Yields.pure, fun candidate => iff_of_false (by simp) ?_⟩
    rintro ⟨characters, hoption, -⟩
    have hinside := hoption.description.inside
    unfold descriptionPlace at hinside
    omega
  rw [if_neg hshort]
  have hsix : 6 + 2 ≤ bytes.length := Nat.not_lt.mp hshort
  have hattributes := @peekDoubleWord_yields bytes (by omega)
  have hpathLength := @peekWord_yields bytes 4 (by omega)
  obtain ⟨found, hfound, hends⟩ := @peekDescriptionEnd_yields bytes 0
  cases found with
  | none =>
      refine ⟨_, hattributes.bind (hpathLength.bind (hfound.bind Yields.pure)), fun candidate => ?_⟩
      refine iff_of_false (by simp) ?_
      rintro ⟨characters, hoption, -⟩
      exact absurd ((hends characters).mpr hoption.description) (by simp)
  | some characters =>
      have hdescription : DescriptionEnds bytes 0 characters := (hends characters).mp rfl
      obtain ⟨result, hyields, hresult⟩ := @peekOptionPath_yields bytes characters number hdescription
      exact ⟨result, hattributes.bind (hpathLength.bind (hfound.bind hyields)),
        LoadOption.of_description hdescription hresult⟩

theorem legacyBootParseLegacyBootOption_iff {number : UInt16} {candidate : BootCandidate} :
    legacyBootParseLegacyBootOption allPools number bytes = .ok candidate ↔
      ∃ characters, LoadOption bytes characters ∧ candidate = optionCandidate number bytes characters := by
  obtain ⟨result, hyields, hresult⟩ := @peekParseLegacyBootOption_yields bytes number
  rw [← hresult, ← hyields.run_eq]
  rfl

/-! ### Refusals -/

section

variable {α : Type}

/-- What is refused is refused with an error. -/
def RefusedWithError (result : Except EfiStatus α) : Prop :=
  ∀ status, result = .error status → status.isError = true

theorem RefusedWithError.ok {value : α} : RefusedWithError (.ok value) := by
  rintro status ⟨⟩

theorem RefusedWithError.error {status : EfiStatus} (h : status.isError = true) :
    RefusedWithError (.error status : Except EfiStatus α) := by
  rintro status ⟨⟩
  exact h

end

theorem peekBbsString_ends :
    Ends RefusedWithError (peekBbsString nodeLength descriptionBytes) := by
  unfold peekBbsString
  refine Ends.bind fun last => ?_
  split
  · exact Ends.pure (.error rfl)
  refine Ends.bind fun zero => ?_
  split
  · exact Ends.pure (.error rfl)
  split
  · exact Ends.pure (.error rfl)
  · exact Ends.bind fun text => Ends.pure .ok

theorem peekValidateExactBbsDevicePath_ends {pathSize : Nat} :
    Ends RefusedWithError (peekValidateExactBbsDevicePath pathSize descriptionBytes) := by
  unfold peekValidateExactBbsDevicePath
  refine Ends.bind fun status => ?_
  split
  case isTrue hstatus => exact Ends.pure (.error hstatus)
  refine Ends.bind fun nodeType => Ends.bind fun subType => ?_
  split
  · exact Ends.pure (.error rfl)
  split
  · exact Ends.pure (.error rfl)
  refine Ends.bind fun nodeLength => ?_
  split
  · exact Ends.pure (.error rfl)
  refine Ends.bind fun ends => ?_
  split
  · exact Ends.pure (.error rfl)
  refine peekBbsString_ends.bind_of fun result hresult => ?_
  cases result with
  | error status => exact Ends.pure (.error (hresult status rfl))
  | ok text => exact Ends.bind fun deviceType => Ends.bind fun statusFlag => Ends.pure .ok

theorem peekOptionPath_ends {pools : OptionPools} {number : UInt16} {attributes : UInt32}
    {variableSize pathSize : Nat} :
    Ends RefusedWithError
      (peekOptionPath pools number attributes variableSize characters pathSize) := by
  unfold peekOptionPath
  dsimp only
  split
  · exact Ends.pure (.error rfl)
  refine Ends.bind fun status => ?_
  split
  case isTrue hstatus => exact Ends.pure (.error hstatus)
  refine Ends.bind fun nodeType => Ends.bind fun subType => ?_
  split
  · exact Ends.pure (.error rfl)
  split
  · exact Ends.pure (.error rfl)
  refine Ends.bind fun description => Ends.bind fun devicePath => Ends.bind fun optionalData => ?_
  refine peekValidateExactBbsDevicePath_ends.through.bind_of fun result hresult => ?_
  cases result with
  | error status => exact Ends.pure (.error (hresult status rfl))
  | ok parts => exact Ends.pure .ok

theorem legacyBootParseLegacyBootOption_error {pools : OptionPools} {number : UInt16} :
    RefusedWithError (legacyBootParseLegacyBootOption pools number bytes) := by
  suffices h : Ends RefusedWithError (peekParseLegacyBootOption pools number bytes.length) from h _
  unfold peekParseLegacyBootOption
  split
  · exact Ends.pure (.error rfl)
  refine Ends.bind fun attributes => Ends.bind fun pathLength => Ends.bind fun found => ?_
  cases found with
  | none => exact Ends.pure (.error rfl)
  | some characters => exact peekOptionPath_ends

theorem peekOptionPath_pools {pools : OptionPools} {number : UInt16} {attributes : UInt32}
    {variableSize pathSize : Nat} {memory : Nat → UInt8} {candidate : BootCandidate}
    (h : (peekOptionPath pools number attributes variableSize characters pathSize).run memory =
      .ok candidate) :
    (peekOptionPath allPools number attributes variableSize characters pathSize).run memory =
      .ok candidate := by
  unfold peekOptionPath at h ⊢
  dsimp only at h ⊢
  split at h
  case isTrue => cases h
  case isFalse hsizes =>
  rw [if_neg hsizes]
  rw [run_bind] at h ⊢
  split at h
  case isTrue => cases h
  case isFalse hstatus =>
  rw [if_neg hstatus]
  rw [run_bind, run_bind] at h ⊢
  split at h
  case isTrue => cases h
  case isFalse hnode =>
  rw [if_neg hnode, if_neg (by simp [allPools])]
  split at h
  case isTrue => cases h
  case isFalse => exact h

/-- With fewer allocations granted, fewer options are accepted. -/
theorem legacyBootParseLegacyBootOption_pools {pools : OptionPools} {number : UInt16}
    {candidate : BootCandidate}
    (h : legacyBootParseLegacyBootOption pools number bytes = .ok candidate) :
    legacyBootParseLegacyBootOption allPools number bytes = .ok candidate := by
  unfold legacyBootParseLegacyBootOption peekParseLegacyBootOption at h ⊢
  split at h
  case isTrue => cases h
  case isFalse hshort =>
  rw [if_neg hshort]
  rw [run_bind, run_bind, run_bind] at h ⊢
  cases hfound : (peekDescriptionEnd bytes.length 0).run fun offset => bytes[offset]! with
  | none =>
      rw [hfound] at h
      cases h
  | some characters =>
      rw [hfound] at h
      exact peekOptionPath_pools h

/-! ### The walk ends -/

/-- Each step of the walk reads four bytes and goes over at least as many. -/
theorem peekDevicePathNodes_places {memory : Nat → UInt8} {pathSize : Nat} {sawEnd : Bool} :
    ((peekDevicePathNodes pathSize offset sawEnd).places memory).length ≤ pathSize - offset := by
  induction hleft : pathSize - offset using Nat.strong_induction_on generalizing offset sawEnd with
  | _ left ih =>
  rw [peekDevicePathNodes]
  by_cases hin : offset < pathSize
  swap
  · rw [if_neg hin]
    exact Nat.zero_le _
  rw [if_pos hin]
  by_cases hshort : pathSize - offset < 4
  · rw [if_pos hshort]
    exact Nat.zero_le _
  rw [if_neg hshort]
  rw [places_peek_bind, List.length_cons, places_peek_bind, List.length_cons, places_bind,
    List.length_append, show ((peekWord (offset + 2)).places memory).length = 2 from rfl]
  generalize (peekWord (offset + 2)).run memory = nodeLength
  by_cases hlength : nodeLength.toNat < 4 ∨ nodeLength.toNat > pathSize - offset
  · rw [dif_pos hlength, places_pure, List.length_nil]
    omega
  rw [dif_neg hlength]
  -- what is read after the four bytes of the node
  have hnil : 2 + ((pure false : OptionRead Bool).places memory).length + 1 + 1 ≤ left := by
    rw [places_pure, List.length_nil]
    omega
  have hnext : ∀ sawEnd', 2 + ((peekDevicePathNodes pathSize (offset + nodeLength.toNat) sawEnd').places
      memory).length + 1 + 1 ≤ left := by
    intro sawEnd'
    have hle := @ih (pathSize - (offset + nodeLength.toNat)) (by omega) _ sawEnd' rfl
    omega
  by_cases htype : memory offset = endDevicePathType
  swap
  · rw [if_neg htype]
    exact hnext sawEnd
  rw [if_pos htype]
  by_cases hfour : nodeLength ≠ 4
  · rw [if_pos hfour]
    exact hnil
  rw [if_neg hfour]
  by_cases hentire : memory (offset + 1) = endEntireDevicePathSubtype
  · rw [if_pos hentire]
    split
    · exact hnil
    · exact hnext true
  rw [if_neg hentire]
  split
  · exact hnext sawEnd
  · exact hnil

theorem peekValidateDevicePathList_places {memory : Nat → UInt8} {pathSize : Nat} :
    ((peekValidateDevicePathList pathSize).places memory).length ≤ pathSize := by
  unfold peekValidateDevicePathList
  split
  case isTrue => exact Nat.zero_le _
  case isFalse =>
    have hwalk := @peekDevicePathNodes_places 0 memory pathSize false
    rw [places_bind, List.length_append]
    split
    · exact hwalk
    · exact hwalk

end

/-- The options accepted are those of the format, and what is kept of one are its parts. No byte outside the
variable is read, and the walk over the nodes ends whatever lengths they give. -/
theorem bootOptionParse_exact {number : UInt16} {bytes : List UInt8} :
    (∀ candidate, legacyBootParseLegacyBootOption allPools number bytes = .ok candidate ↔
        ∃ characters, LoadOption bytes characters ∧ candidate = optionCandidate number bytes characters) ∧
      (peekParseLegacyBootOption allPools number bytes.length).Within (InBytes bytes) (byteAt bytes) ∧
      ∀ (memory : Nat → UInt8) pathSize,
        ((peekValidateDevicePathList pathSize).places memory).length ≤ pathSize := by
  obtain ⟨result, hyields, -⟩ := @peekParseLegacyBootOption_yields bytes number
  exact ⟨fun candidate => legacyBootParseLegacyBootOption_iff, hyields.within,
    fun memory pathSize => peekValidateDevicePathList_places⟩

end CsmVgaSelector
