import CsmVgaSelector.Bbs.Probe
import CsmVgaSelector.Config.Rank
import CsmVgaSelector.Lib.Least
import Mathlib.Data.Prod.Lex

/-!
# What ranking leaves

Ranking marks what it should and selects the least of the eligible candidates, whatever their order, and a
second ranking changes nothing (`candidateRanking`).
-/

namespace CsmVgaSelector

/-- What a ranking does to a list: it leaves each item marked, selects the least eligible one, does so for every
order of the list, and does nothing more when it is repeated. -/
structure RanksLeast {α κ : Type} [LinearOrder κ] (rank : List α → Option (List α × Option Nat))
    (eligible : α → Prop) (key : α → κ) (mark : α → Bool → α) (items ranked : List α) (selected : Option Nat) :
    Prop where
  result : rank items = some (ranked, selected)
  marks : ranked = items.mapIdx fun index item => mark item (selected == some index)
  nothing : selected = none ↔ ∀ item ∈ items, ¬ eligible item
  least : ∀ index, selected = some index ↔
    ∃ item, items[index]? = some item ∧ eligible item ∧ ∀ other ∈ items, eligible other → key item ≤ key other
  order : ∀ items' ranked' selected', items.Perm items' → rank items' = some (ranked', selected') →
    selected.bind (items[·]?) = selected'.bind (items'[·]?)
  again : rank ranked = some (ranked, selected)

/-! ### Displays -/

/-- What makes a display eligible. -/
def DisplayAcceptable (item : NcvDisplayCandidate) : Prop :=
  item.addressValid = true ∧ ¬ (item.activeLegacyVgaOwnerKnown = true ∧ item.activeLegacyVgaOwner = true) ∧
    item.acceptedLegacyRom = true ∧ item.pathDiscovered = true ∧ item.pathValidated = true

instance : DecidablePred DisplayAcceptable := fun _ => inferInstanceAs (Decidable (_ ∧ _))

def addressKey (address : PciAddress) : ℕ ×ₗ ℕ ×ₗ ℕ ×ₗ ℕ :=
  toLex (address.segment.toNat, toLex (address.bus.toNat, toLex (address.device.toNat, address.function.toNat)))

/-- A display known to be inactive comes first, then one without the console, then the lower address. -/
def displayKey (item : NcvDisplayCandidate) : ℕ ×ₗ ℕ ×ₗ ℕ ×ₗ ℕ ×ₗ ℕ ×ₗ ℕ :=
  toLex (if item.activeLegacyVgaOwnerKnown = true ∧ item.activeLegacyVgaOwner = false then 0 else 1,
    toLex (if item.gopAssociationKnown = true ∧ item.gopAssociated = false then 0 else 1, addressKey item.address))

def markDisplay (item : NcvDisplayCandidate) (chosen : Bool) : NcvDisplayCandidate :=
  { item with eligible := decide (DisplayAcceptable item), selected := chosen }

theorem lex_lt_iff {κ : Type} [LinearOrder κ] {a a' : ℕ} {b b' : κ} :
    toLex (a, b) < toLex (a', b') ↔ a < a' ∨ a = a' ∧ b < b' := Prod.Lex.toLex_lt_toLex

theorem displayEligible_iff {item : NcvDisplayCandidate} : displayEligible item = true ↔ DisplayAcceptable item := by
  simp only [displayEligible, DisplayAcceptable, Bool.and_eq_true, Bool.not_eq_true', Bool.and_eq_false_iff,
    and_assoc]
  cases item.activeLegacyVgaOwnerKnown <;> cases item.activeLegacyVgaOwner <;> simp

theorem displayEligible_eq (item : NcvDisplayCandidate) : displayEligible item = decide (DisplayAcceptable item) := by
  rw [Bool.eq_iff_iff, displayEligible_iff, decide_eq_true_iff]

theorem addressKey_inj {left right : PciAddress} (h : addressKey left = addressKey right) : left = right := by
  obtain ⟨hsegment, hrest⟩ := Prod.mk.inj (toLex.injective h)
  obtain ⟨hbus, hrest⟩ := Prod.mk.inj (toLex.injective hrest)
  obtain ⟨hdevice, hfunction⟩ := Prod.mk.inj (toLex.injective hrest)
  cases left
  cases right
  rw [PciAddress.mk.injEq]
  exact ⟨UInt16.toNat.inj hsegment, UInt8.toNat.inj hbus, UInt8.toNat.inj hdevice, UInt8.toNat.inj hfunction⟩

theorem addressLess_iff {left right : PciAddress} :
    addressLess left right = true ↔ addressKey left < addressKey right := by
  simp only [addressKey, Prod.Lex.toLex_lt_toLex]
  unfold addressLess
  have hsegment := @UInt16.toNat_inj left.segment right.segment
  have hbus := @UInt8.toNat_inj left.bus right.bus
  have hdevice := @UInt8.toNat_inj left.device right.device
  by_cases h : left.segment = right.segment
  · rw [if_neg (not_not.mpr h), h]
    by_cases h' : left.bus = right.bus
    · rw [if_neg (not_not.mpr h'), h']
      by_cases h'' : left.device = right.device
      · rw [if_neg (not_not.mpr h''), h'']
        simp [UInt8.lt_iff_toNat_lt]
      · rw [if_pos h'']
        have hne := mt hdevice.mp h''
        simp [UInt8.lt_iff_toNat_lt, hne]
    · rw [if_pos h']
      have hne := mt hbus.mp h'
      simp [UInt8.lt_iff_toNat_lt, hne]
  · rw [if_pos h]
    have hne := mt hsegment.mp h
    simp [UInt16.lt_iff_toNat_lt, hne]

theorem activeVgaRank_eq (item : NcvDisplayCandidate) : activeVgaRank item =
    if item.activeLegacyVgaOwnerKnown = true ∧ item.activeLegacyVgaOwner = false then 0 else 1 := by
  cases hknown : item.activeLegacyVgaOwnerKnown <;> cases howner : item.activeLegacyVgaOwner <;>
    simp [activeVgaRank, hknown, howner]

theorem gopRank_eq (item : NcvDisplayCandidate) : gopRank item =
    if item.gopAssociationKnown = true ∧ item.gopAssociated = false then 0 else 1 := by
  cases hknown : item.gopAssociationKnown <;> cases hassociated : item.gopAssociated <;>
    simp [gopRank, hknown, hassociated]

theorem displayRanksBefore_iff (item best : NcvDisplayCandidate) :
    displayRanksBefore item best = true ↔ displayKey item < displayKey best := by
  rw [displayKey, displayKey, ← activeVgaRank_eq, ← activeVgaRank_eq, ← gopRank_eq, ← gopRank_eq, lex_lt_iff,
    lex_lt_iff, ← addressLess_iff]
  simp only [displayRanksBefore, Bool.or_eq_true, Bool.and_eq_true, beq_iff_eq, decide_eq_true_iff]
  tauto

theorem selectDisplay_eq (items : List NcvDisplayCandidate) : selectDisplay items =
    Least.scan (fun item => decide (DisplayAcceptable item)) displayRanksBefore items := by
  have heligible : (fun item => decide (DisplayAcceptable item)) = displayEligible :=
    funext fun item => (displayEligible_eq item).symm
  rw [heligible, selectDisplay, Least.scan]
  congr 2
  funext best entry
  cases best with
  | none => rfl
  | some => rfl

theorem ncvRankDisplays_eq {items : List NcvDisplayCandidate} (hcount : items.length ≤ maxDisplayCandidates) :
    ncvRankDisplays items =
      some (items.mapIdx fun index item => markDisplay item (selectDisplay items == some index),
        selectDisplay items) := by
  rw [ncvRankDisplays, if_neg (not_lt.mpr hcount)]
  dsimp only
  congr 2
  apply congrArg₂ _ _ rfl
  funext index item
  rw [displayEligible_eq]
  rfl

/-! ### The parts of a ranking -/

section

variable {α κ : Type} [LinearOrder κ] {rank : List α → Option (List α × Option Nat)} {eligible : α → Prop}
  [DecidablePred eligible] {before : α → α → Bool} {key : α → κ} {mark : α → Bool → α} {items ranked : List α}
  {selected : Option Nat}

/-- A ranking that scans for the least eligible item. -/
theorem ranksLeast_of_scan (hbefore : ∀ item other, before item other = true ↔ key item < key other)
    (hkeys : (items.map key).Nodup)
    (hselected : selected = Least.scan (fun item => decide (eligible item)) before items)
    (hmarks : ranked = items.mapIdx fun index item => mark item (selected == some index))
    (hresult : rank items = some (ranked, selected))
    (horder : ∀ items' ranked' selected', items.Perm items' → rank items' = some (ranked', selected') →
      selected' = Least.scan (fun item => decide (eligible item)) before items')
    (hagain : rank ranked = some (ranked, selected)) :
    RanksLeast rank eligible key mark items ranked selected where
  result := hresult
  marks := hmarks
  nothing := by
    rw [hselected]
    rcases @Least.scan_cases _ _ (fun item => decide (eligible item)) _ _ _ hbefore items with
      ⟨hnone, hineligible⟩ | ⟨index, item, hsome, -, hmem, heligible, -⟩
    · rw [hnone]
      exact iff_of_true rfl fun item hitem => of_decide_eq_false (hineligible item hitem)
    · rw [hsome]
      exact iff_of_false nofun fun hnot => hnot item hmem (of_decide_eq_true heligible)
  least := by
    intro index
    rw [hselected, Least.scan_eq_some hbefore hkeys]
    refine exists_congr fun item => and_congr_right fun hget => ?_
    simp only [Least.IsLeast, decide_eq_true_iff]
    exact and_iff_right (List.mem_of_getElem? hget)
  order := by
    intro items' ranked' selected' hperm hresult'
    rw [hselected, horder items' ranked' selected' hperm hresult']
    exact Least.scan_perm hbefore hkeys hperm
  again := hagain

/-- Marking twice is marking once. -/
theorem mapIdx_mark (hmark : ∀ item chosen chosen', mark (mark item chosen) chosen' = mark item chosen') :
    ((items.mapIdx fun index item => mark item (selected == some index)).mapIdx fun index item =>
        mark item (selected == some index)) =
      items.mapIdx fun index item => mark item (selected == some index) := by
  rw [List.mapIdx_mapIdx]
  congr 1
  funext index item
  exact hmark ..

end

theorem rankDisplays_exact {items : List NcvDisplayCandidate} (haddresses : (items.map (·.address)).Nodup)
    (hcount : items.length ≤ maxDisplayCandidates) :
    ∃ ranked selected,
      RanksLeast ncvRankDisplays DisplayAcceptable displayKey markDisplay items ranked selected := by
  have hkeys : (items.map displayKey).Nodup := by
    rw [List.Nodup, List.pairwise_map] at haddresses ⊢
    refine haddresses.imp fun hne hkey => hne (addressKey_inj ?_)
    exact (Prod.mk.inj (toLex.injective (Prod.mk.inj (toLex.injective hkey)).2)).2
  refine ⟨_, _, ranksLeast_of_scan displayRanksBefore_iff hkeys (selectDisplay_eq items) rfl
    (ncvRankDisplays_eq hcount) ?_ ?_⟩
  · intro items' ranked' selected' hperm hresult'
    rw [ncvRankDisplays_eq (hperm.length_eq ▸ hcount), Option.some.injEq, Prod.mk.injEq] at hresult'
    rw [← hresult'.2, selectDisplay_eq]
  · have hselected : selectDisplay
        (items.mapIdx fun index item => markDisplay item (selectDisplay items == some index)) =
          selectDisplay items := by
      rw [selectDisplay_eq (items.mapIdx _), selectDisplay_eq items]
      exact Least.scan_mapIdx (fun _ _ _ => rfl) fun _ _ _ _ => rfl
    rw [ncvRankDisplays_eq (by rwa [List.length_mapIdx]), hselected]
    exact congrArg (fun ranked => some (ranked, selectDisplay items)) (mapIdx_mark fun _ _ _ => rfl)

/-! ### Disks -/

/-- Another candidate has the same controller, and a description that is the same but for case. -/
def SharesIdentity (items : List NcvStorageCandidate) (item : NcvStorageCandidate) : Prop :=
  item.addressValid = true ∧ ∃ other ∈ items, other.bbsIndex ≠ item.bbsIndex ∧ other.addressValid = true ∧
    other.address = item.address ∧
    (cString other.description.array).map lowerCase = (cString item.description.array).map lowerCase

instance (items : List NcvStorageCandidate) : DecidablePred (SharesIdentity items) := fun _ =>
  inferInstanceAs (Decidable (_ ∧ _))

/-- A candidate that discovery found eligible, and that no other is like. -/
def StorageSelectable (items : List NcvStorageCandidate) (item : NcvStorageCandidate) : Prop :=
  item.eligible = true ∧ ¬ SharesIdentity items item

instance (items : List NcvStorageCandidate) : DecidablePred (StorageSelectable items) := fun _ =>
  inferInstanceAs (Decidable (_ ∧ _))

/-- A disk that is not on USB comes first, then the lower index. -/
def storageKey (item : NcvStorageCandidate) : ℕ ×ₗ ℕ :=
  toLex (if item.usb = true then 1 else 0, item.bbsIndex.toNat)

def markStorage (items : List NcvStorageCandidate) (item : NcvStorageCandidate) (chosen : Bool) :
    NcvStorageCandidate :=
  { item with
    identityAmbiguous := decide (SharesIdentity items item)
    eligible := decide (StorageSelectable items item)
    selected := chosen }

variable {items : List NcvStorageCandidate}

theorem lowerCase_eq_zero {character : UInt8} : lowerCase character = 0 ↔ character = 0 := by
  constructor
  · intro h
    unfold lowerCase at h
    split at h
    case isTrue hupper =>
      have hlow := UInt8.le_iff_toNat_le.mp hupper.1
      have hhigh := UInt8.le_iff_toNat_le.mp hupper.2
      have hzero := congrArg UInt8.toNat h
      rw [UInt8.toNat_add] at hzero
      have hbounds : (byte 'A').toNat = 65 ∧ (byte 'Z').toNat = 90 ∧ (32 : UInt8).toNat = 32 := by decide
      rw [hbounds.1] at hlow
      rw [hbounds.2.1] at hhigh
      rw [hbounds.2.2] at hzero
      change (character.toNat + 32) % 256 = 0 at hzero
      omega
    case isFalse => exact h
  · rintro rfl
    decide

/-- The comparison of two terminated arrays. -/
theorem sameDescription_iff {left right : Bytes} (hleft : 0 ∈ left) (hright : 0 ∈ right) :
    sameDescription left right = true ↔ (cString left).map lowerCase = (cString right).map lowerCase := by
  induction left generalizing right with
  | nil => cases hleft
  | cons character left ih =>
      cases right with
      | nil => cases hright
      | cons character' right =>
          rw [sameDescription, Bool.and_eq_true, beq_iff_eq]
          by_cases hzero : character = 0
          · rw [hzero]
            have hlower : lowerCase 0 = 0 := by decide
            by_cases hzero' : character' = 0
            · rw [hzero']
              simp [cString, hlower]
            · have hne : ¬ (0 = lowerCase character') := fun h => hzero' (lowerCase_eq_zero.mp h.symm)
              simp [cString, hlower, hzero', hne]
          · have hrest : 0 ∈ left := (List.mem_cons.mp hleft).resolve_left (Ne.symm hzero)
            have hlower : ¬ lowerCase character = 0 := mt lowerCase_eq_zero.mp hzero
            have hcString : cString (character :: left) = character :: cString left := by
              simp [cString, hzero]
            rw [hcString]
            by_cases hzero' : character' = 0
            · have hempty : cString (character' :: right) = [] := by
                simp [cString, hzero']
              have hlower' : lowerCase character' = 0 := lowerCase_eq_zero.mpr hzero'
              rw [hempty, hlower']
              simp [hlower]
            · have hrest' : 0 ∈ right := (List.mem_cons.mp hright).resolve_left (Ne.symm hzero')
              have hcString' : cString (character' :: right) = character' :: cString right := by
                simp [cString, hzero']
              rw [hcString', List.map_cons, List.map_cons, List.cons.injEq, Bool.or_eq_true, beq_iff_eq,
                ih hrest hrest']
              simp [hlower]

/-- Distinct rows are distinct candidates. -/
theorem eq_of_bbsIndex (hindices : (items.map (·.bbsIndex)).Nodup) {item other : NcvStorageCandidate}
    (hitem : item ∈ items) (hother : other ∈ items) (h : item.bbsIndex = other.bbsIndex) : item = other :=
  List.inj_on_of_nodup_map hindices hitem hother h

theorem identityAmbiguous_eq (hindices : (items.map (·.bbsIndex)).Nodup)
    (hterminated : ∀ item ∈ items, 0 ∈ item.description.array) {index : Nat} {item : NcvStorageCandidate}
    (hget : items[index]? = some item) :
    identityAmbiguous items index item = decide (SharesIdentity items item) := by
  have hitem := List.mem_of_getElem? hget
  rw [Bool.eq_iff_iff, decide_eq_true_iff, identityAmbiguous, Bool.and_eq_true, List.any_eq_true, SharesIdentity]
  refine and_congr_right fun _ => ?_
  constructor
  · rintro ⟨⟨other, otherIndex⟩, hmem, hsame⟩
    have hotherGet := List.mem_zipIdx_iff_getElem?.mp hmem
    have hother := List.mem_of_getElem? hotherGet
    simp only [Bool.and_eq_true, bne_iff_ne, beq_iff_eq] at hsame
    obtain ⟨⟨⟨hne, hvalid⟩, haddress⟩, hdescription⟩ := hsame
    refine ⟨other, hother, fun hindex => hne ?_, hvalid, haddress.symm, ?_⟩
    · obtain rfl := eq_of_bbsIndex hindices hother hitem hindex
      obtain ⟨hlt, heq⟩ := List.getElem?_eq_some_iff.mp hget
      obtain ⟨hlt', heq'⟩ := List.getElem?_eq_some_iff.mp hotherGet
      exact (List.Nodup.of_map _ hindices).getElem_inj_iff.mp (heq'.trans heq.symm)
    · exact ((sameDescription_iff (hterminated item hitem) (hterminated other hother)).mp hdescription).symm
  · rintro ⟨other, hother, hne, hvalid, haddress, hdescription⟩
    obtain ⟨otherIndex, hotherGet⟩ := List.mem_iff_getElem?.mp hother
    refine ⟨(other, otherIndex), List.mem_zipIdx_iff_getElem?.mpr hotherGet, ?_⟩
    simp only [Bool.and_eq_true, bne_iff_ne, beq_iff_eq]
    refine ⟨⟨⟨fun hindex => hne ?_, hvalid⟩, haddress.symm⟩, ?_⟩
    · rw [hindex, hget] at hotherGet
      rw [Option.some.inj hotherGet]
    · exact (sameDescription_iff (hterminated item hitem) (hterminated other hother)).mpr hdescription.symm

theorem storageRanksBefore_iff (item best : NcvStorageCandidate) :
    storageRanksBefore item best = true ↔ storageKey item < storageKey best := by
  rw [storageKey, storageKey, lex_lt_iff]
  have hlt := @UInt64.lt_iff_toNat_lt item.bbsIndex best.bbsIndex
  cases hitem : item.usb <;> cases hbest : best.usb <;> simp [storageRanksBefore, hitem, hbest, hlt]

theorem selectStorage_eq (items : List NcvStorageCandidate) : selectStorage items =
    Least.scan (·.eligible) storageRanksBefore items := by
  rw [selectStorage, Least.scan]
  congr 2
  funext best entry
  cases best with
  | none => rfl
  | some => rfl

/-- What the loop over the identities leaves. -/
theorem markAmbiguous_eq (hindices : (items.map (·.bbsIndex)).Nodup)
    (hterminated : ∀ item ∈ items, 0 ∈ item.description.array) :
    markAmbiguous items = items.mapIdx fun _ item => markStorage items item item.selected := by
  apply List.ext_getElem
  · simp [markAmbiguous]
  · intro index h h'
    have hindex : index < items.length := by simpa using h'
    have hambiguous := identityAmbiguous_eq hindices hterminated (List.getElem?_eq_getElem hindex)
    have heligible : decide (StorageSelectable items items[index]) =
        (items[index].eligible && !decide (SharesIdentity items items[index])) := by
      rw [Bool.eq_iff_iff, decide_eq_true_iff, Bool.and_eq_true, Bool.not_eq_true', decide_eq_false_iff_not]
      rfl
    simp only [markAmbiguous, List.getElem_mapIdx, markStorage, hambiguous, heligible]

theorem selectStorage_markAmbiguous (hindices : (items.map (·.bbsIndex)).Nodup)
    (hterminated : ∀ item ∈ items, 0 ∈ item.description.array) : selectStorage (markAmbiguous items) =
      Least.scan (fun item => decide (StorageSelectable items item)) storageRanksBefore items := by
  rw [markAmbiguous_eq hindices hterminated, selectStorage_eq]
  exact Least.scan_mapIdx (fun _ _ _ => rfl) fun _ _ _ _ => rfl

theorem ncvRankStorage_eq (hindices : (items.map (·.bbsIndex)).Nodup)
    (hterminated : ∀ item ∈ items, 0 ∈ item.description.array) (hcount : items.length ≤ maxStorageCandidates) :
    ncvRankStorage items =
      some (items.mapIdx fun index item => markStorage items item (selectStorage (markAmbiguous items) == some index),
        selectStorage (markAmbiguous items)) := by
  rw [ncvRankStorage, if_neg (not_lt.mpr hcount)]
  dsimp only
  congr 2
  generalize selectStorage (markAmbiguous items) = best
  rw [markAmbiguous_eq hindices hterminated, List.mapIdx_mapIdx]
  rfl

theorem sharesIdentity_perm {items' : List NcvStorageCandidate} (hperm : items.Perm items')
    (item : NcvStorageCandidate) : SharesIdentity items' item ↔ SharesIdentity items item := by
  simp only [SharesIdentity, hperm.mem_iff]

/-- Marks change nothing that makes a candidate ambiguous. -/
theorem sharesIdentity_mark {chosen : Nat → Bool} {item : NcvStorageCandidate} {choice : Bool} :
    SharesIdentity (items.mapIdx fun index item => markStorage items item (chosen index))
        (markStorage items item choice) ↔ SharesIdentity items item := by
  refine and_congr_right fun _ => ?_
  constructor
  · rintro ⟨other', hother', hsame⟩
    obtain ⟨index, hindex, rfl⟩ := List.mem_mapIdx.mp hother'
    exact ⟨items[index], List.getElem_mem hindex, hsame⟩
  · rintro ⟨other, hother, hsame⟩
    obtain ⟨index, hindex, rfl⟩ := List.mem_iff_getElem.mp hother
    exact ⟨markStorage items items[index] (chosen index), List.mem_mapIdx.mpr ⟨index, hindex, rfl⟩, hsame⟩

theorem storageSelectable_mark {chosen : Nat → Bool} {item : NcvStorageCandidate} {choice : Bool} :
    StorageSelectable (items.mapIdx fun index item => markStorage items item (chosen index))
        (markStorage items item choice) ↔ StorageSelectable items item := by
  rw [StorageSelectable, sharesIdentity_mark]
  change decide (StorageSelectable items item) = true ∧ _ ↔ _
  rw [decide_eq_true_iff, StorageSelectable]
  exact and_iff_left_of_imp And.right

theorem markStorage_markStorage {chosen : Nat → Bool} {item : NcvStorageCandidate} {choice choice' : Bool} :
    markStorage (items.mapIdx fun index item => markStorage items item (chosen index))
        (markStorage items item choice) choice' = markStorage items item choice' := by
  rw [markStorage]
  congr 1
  · exact decide_eq_decide.mpr sharesIdentity_mark
  · exact decide_eq_decide.mpr storageSelectable_mark

theorem rankStorage_exact (hindices : (items.map (·.bbsIndex)).Nodup)
    (hterminated : ∀ item ∈ items, 0 ∈ item.description.array) (hcount : items.length ≤ maxStorageCandidates) :
    ∃ ranked selected,
      RanksLeast ncvRankStorage (StorageSelectable items) storageKey (markStorage items) items ranked selected := by
  have hkeys : (items.map storageKey).Nodup := by
    rw [List.Nodup, List.pairwise_map] at hindices ⊢
    refine hindices.imp fun hne hkey => hne (UInt64.toNat.inj ?_)
    exact (Prod.mk.inj (toLex.injective hkey)).2
  refine ⟨_, _, ranksLeast_of_scan storageRanksBefore_iff hkeys
    (selectStorage_markAmbiguous hindices hterminated) rfl (ncvRankStorage_eq hindices hterminated hcount) ?_ ?_⟩
  · intro items' ranked' selected' hperm hresult'
    have hindices' := (hperm.map (·.bbsIndex)).nodup_iff.mp hindices
    have hterminated' : ∀ item ∈ items', 0 ∈ item.description.array :=
      fun item hitem => hterminated item (hperm.mem_iff.mpr hitem)
    rw [ncvRankStorage_eq hindices' hterminated' (hperm.length_eq ▸ hcount), Option.some.injEq,
      Prod.mk.injEq] at hresult'
    rw [← hresult'.2, selectStorage_markAmbiguous hindices' hterminated']
    congr 1
    funext item
    exact decide_eq_decide.mpr (and_congr_right fun _ => not_congr (sharesIdentity_perm hperm item))
  · generalize hchosen : (fun index => selectStorage (markAmbiguous items) == some index) = chosen
    have hranked : (items.mapIdx fun index item =>
        markStorage items item (selectStorage (markAmbiguous items) == some index)) =
          items.mapIdx fun index item => markStorage items item (chosen index) := by
      rw [← hchosen]
    rw [hranked]
    have hindices' : ((items.mapIdx fun index item => markStorage items item (chosen index)).map
        (·.bbsIndex)).Nodup := by
      have hsame : (items.mapIdx fun index item => markStorage items item (chosen index)).map (·.bbsIndex) =
          items.map (·.bbsIndex) := by
        apply List.ext_getElem
        · simp
        · intro index h h'
          rw [List.getElem_map, List.getElem_mapIdx, List.getElem_map, markStorage]
      rwa [hsame]
    have hterminated' : ∀ item ∈ items.mapIdx fun index item => markStorage items item (chosen index),
        0 ∈ item.description.array := by
      intro item hitem
      obtain ⟨index, hindex, rfl⟩ := List.mem_mapIdx.mp hitem
      exact hterminated items[index] (List.getElem_mem hindex)
    have hselected : selectStorage
        (markAmbiguous (items.mapIdx fun index item => markStorage items item (chosen index))) =
          selectStorage (markAmbiguous items) := by
      rw [selectStorage_markAmbiguous hindices' hterminated', selectStorage_markAmbiguous hindices hterminated]
      exact Least.scan_mapIdx (fun _ _ _ => decide_eq_decide.mpr storageSelectable_mark) fun _ _ _ _ => rfl
    rw [ncvRankStorage_eq hindices' hterminated' (by rwa [List.length_mapIdx]), hselected, List.mapIdx_mapIdx]
    congr 2
    apply congrArg₂ _ _ rfl
    funext index item
    rw [← hchosen]
    exact markStorage_markStorage

/-- **Ranking.** A list of displays with distinct addresses, and one of disks with distinct indices and
terminated descriptions, are each marked and searched for the least eligible candidate. A list that is too long
is refused. -/
theorem candidateRanking :
    (∀ displays : List NcvDisplayCandidate, (displays.map (·.address)).Nodup →
      displays.length ≤ maxDisplayCandidates → ∃ ranked selected,
        RanksLeast ncvRankDisplays DisplayAcceptable displayKey markDisplay displays ranked selected) ∧
      (∀ storage : List NcvStorageCandidate, (storage.map (·.bbsIndex)).Nodup →
        (∀ item ∈ storage, 0 ∈ item.description.array) → storage.length ≤ maxStorageCandidates →
          ∃ ranked selected, RanksLeast ncvRankStorage (StorageSelectable storage) storageKey
            (markStorage storage) storage ranked selected) ∧
      (∀ displays, maxDisplayCandidates < displays.length → ncvRankDisplays displays = none) ∧
      ∀ storage, maxStorageCandidates < storage.length → ncvRankStorage storage = none :=
  ⟨fun _ haddresses hcount => rankDisplays_exact haddresses hcount,
    fun _ hindices hterminated hcount => rankStorage_exact hindices hterminated hcount,
    fun _ hlong => if_pos hlong, fun _ hlong => if_pos hlong⟩

/-! ### Two of each -/

def twoDisplays : List NcvDisplayCandidate :=
  [2, 1].map fun bus =>
    { address := { segment := 0, bus, device := 0, function := 0 }
      rawSegment := 0
      rawBus := bus.toUInt64
      rawDevice := 0
      rawFunction := 0
      vendor := 0x10DE
      deviceId := 0x1234
      subsystemVendor := 0
      subsystemDevice := 0
      addressValid := true
      gopAssociated := bus == 1
      gopAssociationKnown := true
      activeLegacyVgaOwner := false
      activeLegacyVgaOwnerKnown := true
      optionRomExposed := true
      acceptedLegacyRom := true
      pathDiscovered := true
      pathValidated := true
      eligible := false
      selected := false }

def twoStorage : List NcvStorageCandidate :=
  [0, 1].map fun bbsIndex =>
    { bbsIndex
      address := { segment := 0, bus := 0, device := 31, function := 2 }
      rawBus := 0
      rawDevice := 31
      rawFunction := 2
      baseClass := 1
      subClass := 6
      manufacturer := candidateString []
      description := candidateString (if bbsIndex = 0 then ascii "Stick" else ascii "Disk")
      addressValid := true
      usb := bbsIndex == 0
      firmwareStatusKnown := true
      firmwareStatus := 0
      firmwarePriority := 0
      identityAmbiguous := false
      eligible := true
      selected := false }

theorem candidateRanking_two :
    (∃ ranked selected, RanksLeast ncvRankDisplays DisplayAcceptable displayKey markDisplay twoDisplays
      ranked selected) ∧
      (∃ ranked selected, RanksLeast ncvRankStorage (StorageSelectable twoStorage) storageKey
        (markStorage twoStorage) twoStorage ranked selected) ∧
      selectDisplay twoDisplays = some 0 ∧ selectStorage (markAmbiguous twoStorage) = some 1 :=
  ⟨candidateRanking.1 twoDisplays (by decide) (by decide),
    candidateRanking.2.1 twoStorage (by decide) (by decide) (by decide), by decide, by decide⟩

end CsmVgaSelector
