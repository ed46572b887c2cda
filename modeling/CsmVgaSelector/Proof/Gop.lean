import CsmVgaSelector.Proof.Displays
import CsmVgaSelector.Proof.RouteResult
import CsmVgaSelector.Setup.Gop

/-!
# What is known of the graphics outputs

No two candidates are at one place, so a graphics output marks the candidate of its display and no other; and a
candidate that nothing marked is known to be free only where every graphics output has marked one.
-/

namespace CsmVgaSelector

open Only

variable {displayAnswers : DisplayAnswers} {core : NcvConfigCore} {records : List PciRecord}
  {record : PciRecord} {answer : GopAnswer} {answers : List GopAnswer} {items : List NcvDisplayCandidate}
  {candidate : NcvDisplayCandidate} {located : EfiStatus} {complete marked marked' : Bool}

/-! ### One graphics output -/

/-- The display that a graphics output belongs to, where there is just one that it may. -/
def GopAnswer.owner (answer : GopAnswer) (records : List PciRecord) : Option PciRecord :=
  if answer.status.isError || answer.gop == 0 then none
  else (scan answer.mayBelongTo records).only.map Prod.fst

structure Belongs (records : List PciRecord) (answer : GopAnswer) (record : PciRecord) : Prop where
  status : answer.status.isError = false
  gop : answer.gop ≠ 0
  only : records.filter answer.mayBelongTo = [record]

theorem owner_eq_some : answer.owner records = some record ↔ Belongs records answer record := by
  unfold GopAnswer.owner
  constructor
  · intro h
    split at h
    case isTrue => cases h
    case isFalse hthere =>
      rw [Bool.not_eq_true, Bool.or_eq_false_iff, beq_eq_false_iff_ne] at hthere
      exact ⟨hthere.1, hthere.2, scan_only_map_iff.mp h⟩
  · rintro ⟨hstatus, hgop, honly⟩
    rw [hstatus, beq_eq_false_iff_ne.mpr hgop, Bool.or_self, if_neg Bool.false_ne_true]
    exact scan_only_map_iff.mpr honly

/-- The candidate, marked or not. -/
def NcvDisplayCandidate.associateIf (candidate : NcvDisplayCandidate) (marked : Bool) : NcvDisplayCandidate :=
  if marked then candidate.associate else candidate

theorem isAt_associateIf : (candidate.associateIf marked).isAt record = candidate.isAt record := by
  cases marked <;> rfl

theorem associateIf_associateIf :
    (candidate.associateIf marked).associateIf marked' = candidate.associateIf (marked || marked') := by
  cases marked <;> cases marked' <;> rfl

/-- No two candidates are at one place. -/
def CandidatesApart (items : List NcvDisplayCandidate) : Prop :=
  ∀ record, items.Pairwise fun candidate candidate' =>
    candidate.isAt record = true → candidate'.isAt record = false

theorem associateFirst_eq (h : CandidatesApart items) : associateFirst record items =
    if items.any (·.isAt record) then
      some (items.map fun candidate => candidate.associateIf (candidate.isAt record))
    else none := by
  induction items with
  | nil => rfl
  | cons candidate rest ih =>
      have hrest : CandidatesApart rest := fun record => (List.pairwise_cons.mp (h record)).2
      rw [associateFirst, List.any_cons, List.map_cons]
      cases hat : candidate.isAt record with
      | true =>
          have hothers : rest.map (fun candidate => candidate.associateIf (candidate.isAt record)) = rest := by
            refine (List.map_congr_left fun other hother => ?_).trans (List.map_id rest)
            rw [(List.pairwise_cons.mp (h record)).1 other hother hat]
            rfl
          rw [hothers]
          rfl
      | false =>
          rw [ih hrest, Bool.false_or, if_neg Bool.false_ne_true]
          cases rest.any (·.isAt record) <;> rfl

theorem CandidatesApart.associated (h : CandidatesApart items) (marks : NcvDisplayCandidate → Bool) :
    CandidatesApart (items.map fun candidate => candidate.associateIf (marks candidate)) := by
  intro record
  rw [List.pairwise_map]
  refine (h record).imp fun {candidate candidate'} hother => ?_
  rwa [isAt_associateIf, isAt_associateIf]

/-- The graphics output belongs to a display where the candidate is. -/
def GopAnswer.marks (answer : GopAnswer) (records : List PciRecord) (candidate : NcvDisplayCandidate) : Bool :=
  (answer.owner records).any candidate.isAt

/-- The graphics output belongs to a display that has a candidate. -/
def GopAnswer.marksOne (answer : GopAnswer) (records : List PciRecord) (items : List NcvDisplayCandidate) : Bool :=
  items.any (answer.marks records)

theorem marked_of_owner_eq_none (h : answer.owner records = none) :
    (items.map fun candidate => candidate.associateIf (answer.marks records candidate)) = items ∧
      answer.marksOne records items = false := by
  have hmarks : ∀ candidate, answer.marks records candidate = false := by
    intro candidate
    rw [GopAnswer.marks, h]
    rfl
  constructor
  · refine (List.map_congr_left fun candidate _ => ?_).trans (List.map_id items)
    rw [hmarks]
    rfl
  · rw [GopAnswer.marksOne, List.any_eq_false]
    exact fun candidate _ => by simp [hmarks]

/-- What one turn of the loop does. -/
theorem see_eq (h : CandidatesApart items) : GopScan.see records ⟨items, complete⟩ answer =
    ⟨items.map fun candidate => candidate.associateIf (answer.marks records candidate),
      complete && answer.marksOne records items⟩ := by
  have hnone : answer.owner records = none → (⟨items, false⟩ : GopScan) =
      ⟨items.map fun candidate => candidate.associateIf (answer.marks records candidate),
        complete && answer.marksOne records items⟩ := by
    intro howner
    obtain ⟨hitems, hmarksOne⟩ := @marked_of_owner_eq_none _ _ items howner
    rw [hitems, hmarksOne, Bool.and_false]
  unfold GopScan.see
  split
  case isTrue hthere => exact hnone (if_pos hthere)
  case isFalse hthere =>
    have howner : answer.owner records = (scan answer.mayBelongTo records).only.map Prod.fst := if_neg hthere
    split
    case h_1 honly =>
      rw [honly] at howner
      exact hnone howner
    case h_2 record index honly =>
      rw [honly] at howner
      have hmarks : ∀ candidate, answer.marks records candidate = candidate.isAt record := by
        intro candidate
        rw [GopAnswer.marks, howner]
        rfl
      have hmarksOne : answer.marksOne records items = items.any (·.isAt record) :=
        congrArg items.any (funext hmarks)
      rw [associateFirst_eq h, hmarksOne]
      simp only [hmarks]
      cases hany : items.any (·.isAt record) with
      | true => rw [Bool.and_true, if_pos rfl]
      | false =>
          have hother : ∀ candidate ∈ items, candidate.isAt record = false := by
            simpa using hany
          have hsame : (items.map fun candidate => candidate.associateIf (candidate.isAt record)) = items := by
            refine (List.map_congr_left fun candidate hmem => ?_).trans (List.map_id items)
            rw [hother candidate hmem]
            rfl
          rw [hsame, Bool.and_false, if_neg Bool.false_ne_true]

/-! ### All of them -/

/-- What the whole scan does. -/
theorem foldl_see_eq (h : CandidatesApart items) : answers.foldl (GopScan.see records) ⟨items, complete⟩ =
    ⟨items.map fun candidate => candidate.associateIf (answers.any (·.marks records candidate)),
      complete && answers.all (·.marksOne records items)⟩ := by
  induction answers generalizing items complete with
  | nil =>
      simp only [List.foldl_nil, List.any_nil, List.all_nil, Bool.and_true]
      congr 1
      exact ((List.map_congr_left fun candidate _ => rfl).trans (List.map_id items)).symm
  | cons answer answers ih =>
      have hmarks : ∀ (other : GopAnswer) candidate (marked : Bool),
          other.marks records (candidate.associateIf marked) = other.marks records candidate := by
        intro other candidate marked
        unfold GopAnswer.marks
        congr 1
        exact funext fun record => isAt_associateIf
      have hmarksOne : ∀ other : GopAnswer, other.marksOne records
          (items.map fun candidate => candidate.associateIf (answer.marks records candidate)) =
            other.marksOne records items := by
        intro other
        simp only [GopAnswer.marksOne, List.any_map, Function.comp_def, hmarks]
      rw [List.foldl_cons, see_eq h, ih (h.associated _)]
      simp only [List.map_map, Function.comp_def, hmarks, hmarksOne, associateIf_associateIf, List.any_cons,
        List.all_cons, Bool.and_assoc]

/-- The candidate, but for its graphics output. -/
def NcvDisplayCandidate.withoutGop (candidate : NcvDisplayCandidate) : NcvDisplayCandidate :=
  { candidate with gopAssociated := false, gopAssociationKnown := false }

theorem associateFirst_withoutGop {items' : List NcvDisplayCandidate}
    (h : associateFirst record items = some items') :
    items'.map NcvDisplayCandidate.withoutGop = items.map NcvDisplayCandidate.withoutGop := by
  induction items generalizing items' with
  | nil => cases h
  | cons candidate rest ih =>
      rw [associateFirst] at h
      split at h
      case isTrue =>
        cases h
        rfl
      case isFalse =>
        obtain ⟨rest', hrest, rfl⟩ := Option.map_eq_some_iff.mp h
        rw [List.map_cons, List.map_cons, ih hrest]

theorem see_withoutGop {scanned : GopScan} :
    (scanned.see records answer).items.map NcvDisplayCandidate.withoutGop =
      scanned.items.map NcvDisplayCandidate.withoutGop := by
  unfold GopScan.see
  split
  case isTrue => rfl
  case isFalse =>
    split
    case h_1 => rfl
    case h_2 =>
      split
      case h_1 => rfl
      case h_2 items hassociated => exact associateFirst_withoutGop hassociated

/-- The report changes nothing else of the candidates. -/
theorem reportGopOwnership_withoutGop :
    (reportGopOwnership located answers records items).map NcvDisplayCandidate.withoutGop =
      items.map NcvDisplayCandidate.withoutGop := by
  have hscan : ∀ scanned : GopScan, (answers.foldl (GopScan.see records) scanned).items.map
      NcvDisplayCandidate.withoutGop = scanned.items.map NcvDisplayCandidate.withoutGop := by
    induction answers with
    | nil => exact fun _ => rfl
    | cons answer answers ih => exact fun scanned => (ih _).trans see_withoutGop
  unfold reportGopOwnership
  split
  case isTrue => rfl
  case isFalse =>
    dsimp only
    split
    case isTrue =>
      rw [List.map_map]
      exact hscan ⟨items, true⟩
    case isFalse => exact hscan ⟨items, true⟩

theorem address_of_isAt (h : candidate.isAt record = true) :
    candidate.addressValid = true ∧ candidate.address = record.address := by
  simp only [NcvDisplayCandidate.isAt, Bool.and_eq_true, beq_iff_eq] at h
  obtain ⟨⟨⟨⟨hvalid, hsegment⟩, hbus⟩, hdevice⟩, hfunction⟩ := h
  refine ⟨hvalid, ?_⟩
  rw [PciDeviceRecord.address, ← hsegment, ← hbus, ← hdevice, ← hfunction]
  simp

theorem candidatesApart_collected {inventory : PciInventory}
    (hlocations : LocationsDistinct (records.map PciRecord.toPciDeviceRecord)) :
    CandidatesApart ((displayPlaces records).map (displayAnswers.collectedAt inventory)) := by
  intro record
  have hplaces : records.zipIdx.Pairwise fun place place' =>
      recordLocationIsValid place.1.toPciDeviceRecord = true →
        recordLocationIsValid place'.1.toPciDeviceRecord = true → place.1.address ≠ place'.1.address := by
    have hpairs := List.pairwise_map.mp hlocations
    rwa [← List.zipIdx_map_fst 0 records, List.pairwise_map] at hpairs
  rw [List.pairwise_map]
  refine (hplaces.sublist List.filter_sublist).imp fun {place place'} hapart hat => ?_
  by_contra hat'
  rw [Bool.not_eq_false] at hat'
  obtain ⟨hvalid, haddress⟩ := address_of_isAt hat
  obtain ⟨hvalid', haddress'⟩ := address_of_isAt hat'
  have hhere : (displayAnswers.collectedAt inventory place).address = place.1.address := if_pos hvalid
  have hthere : (displayAnswers.collectedAt inventory place').address = place'.1.address := if_pos hvalid'
  exact hapart hvalid hvalid' (hhere.symm.trans (haddress.trans (haddress'.symm.trans hthere)))

/-- What the graphics outputs of the firmware say of all the displays that setup lists. -/
def AllBelong (records : List PciRecord) (answers : List GopAnswer) (items : List NcvDisplayCandidate) : Prop :=
  ∀ answer ∈ answers, ∃ record, Belongs records answer record ∧ ∃ candidate ∈ items, candidate.isAt record = true

/-- A graphics output belongs to the display of the candidate. -/
def OneBelongs (records : List PciRecord) (answers : List GopAnswer) (candidate : NcvDisplayCandidate) : Prop :=
  ∃ answer ∈ answers, ∃ record, Belongs records answer record ∧ candidate.isAt record = true

theorem marks_iff : answer.marks records candidate = true ↔
    ∃ record, Belongs records answer record ∧ candidate.isAt record = true := by
  simp only [GopAnswer.marks, Option.any_eq_true, owner_eq_some]

theorem any_marks_iff : answers.any (·.marks records candidate) = true ↔ OneBelongs records answers candidate := by
  simp only [List.any_eq_true, marks_iff, OneBelongs]

theorem all_marksOne_iff : answers.all (·.marksOne records items) = true ↔ AllBelong records answers items := by
  simp only [List.all_eq_true, GopAnswer.marksOne, List.any_eq_true, marks_iff, AllBelong]
  refine forall₂_congr fun answer _ => ⟨?_, ?_⟩
  · rintro ⟨candidate, hmem, record, hbelongs, hat⟩
    exact ⟨record, hbelongs, candidate, hmem, hat⟩
  · rintro ⟨record, hbelongs, candidate, hmem, hat⟩
    exact ⟨candidate, hmem, record, hbelongs, hat⟩

/-- What the report of the graphics outputs leaves of a candidate. -/
structure GopReport (located : EfiStatus) (answers : List GopAnswer) (records : List PciRecord)
    (items : List NcvDisplayCandidate) (candidate candidate' : NcvDisplayCandidate) : Prop where
  associated : candidate'.gopAssociated = true ↔ located.isError = false ∧ OneBelongs records answers candidate
  free : gopRank candidate' = 0 ↔ located.isError = false ∧ AllBelong records answers items ∧
    ¬ OneBelongs records answers candidate
  eligible : displayEligible candidate' = displayEligible candidate
  address : candidate'.address = candidate.address

/-- **What the graphics outputs tell.** A candidate is marked just where one of them belongs to its display, and is
ranked as free only where all of them belong to others on the list. -/
theorem gopOwnership_exact (hlocations : LocationsDistinct (records.map PciRecord.toPciDeviceRecord))
    (place : Nat) (candidate : NcvDisplayCandidate)
    (hplace : (reportRomCandidates displayAnswers core records).displays.items[place]? = some candidate) :
    ∃ candidate', (reportGopOwnership located answers records
        (reportRomCandidates displayAnswers core records).displays.items)[place]? = some candidate' ∧
      GopReport located answers records (reportRomCandidates displayAnswers core records).displays.items
        candidate candidate' := by
  obtain ⟨hapart, hassociated, hknown⟩ :
      CandidatesApart (reportRomCandidates displayAnswers core records).displays.items ∧
        candidate.gopAssociated = false ∧ candidate.gopAssociationKnown = false := by
    rw [reportRomCandidates_displays] at hplace ⊢
    refine ⟨fun record => (candidatesApart_collected hlocations record).sublist (List.take_sublist ..), ?_⟩
    obtain ⟨⟨record, index⟩, -, rfl⟩ := List.mem_map.mp (List.mem_of_mem_take (List.mem_of_getElem? hplace))
    exact ⟨rfl, rfl⟩
  generalize (reportRomCandidates displayAnswers core records).displays.items = items at *
  unfold reportGopOwnership
  cases hlocated : located.isError with
  | true =>
      have hnot : ∀ {p : Prop}, ¬ (located.isError = false ∧ p) := fun h => by simp [hlocated] at h
      refine ⟨candidate, hplace, iff_of_false (by simp [hassociated]) hnot, iff_of_false ?_ hnot, rfl, rfl⟩
      simp [gopRank, hknown]
  | false =>
      rw [if_neg Bool.false_ne_true, foldl_see_eq hapart]
      dsimp only
      rw [Bool.true_and]
      have hone := @any_marks_iff records answers candidate
      cases hall : answers.all (·.marksOne records items) with
      | true =>
          have hcomplete := all_marksOne_iff.mp hall
          refine ⟨{ candidate.associateIf (answers.any (·.marks records candidate)) with
            gopAssociationKnown := true }, by simp [hplace], ?_⟩
          cases hmarked : answers.any (·.marks records candidate) with
          | true =>
              have hbelongs := hone.mp hmarked
              exact ⟨iff_of_true rfl ⟨hlocated, hbelongs⟩, iff_of_false nofun fun h => h.2.2 hbelongs, rfl, rfl⟩
          | false =>
              have hnone : ¬ OneBelongs records answers candidate := fun h => by
                cases hmarked.symm.trans (hone.mpr h)
              refine ⟨iff_of_false ?_ fun h => hnone h.2, iff_of_true ?_ ⟨hlocated, hcomplete, hnone⟩, rfl, rfl⟩
              · simp [NcvDisplayCandidate.associateIf, hassociated]
              · simp [gopRank, NcvDisplayCandidate.associateIf, hassociated]
      | false =>
          have hincomplete : ¬ AllBelong records answers items := fun h => by
            cases hall.symm.trans (all_marksOne_iff.mpr h)
          refine ⟨candidate.associateIf (answers.any (·.marks records candidate)), by simp [hplace], ?_⟩
          cases hmarked : answers.any (·.marks records candidate) with
          | true =>
              have hbelongs := hone.mp hmarked
              exact ⟨iff_of_true rfl ⟨hlocated, hbelongs⟩, iff_of_false nofun fun h => h.2.2 hbelongs, rfl, rfl⟩
          | false =>
              have hnone : ¬ OneBelongs records answers candidate := fun h => by
                cases hmarked.symm.trans (hone.mpr h)
              refine ⟨iff_of_false ?_ fun h => hnone h.2, iff_of_false ?_ fun h => hincomplete h.2.1, rfl, rfl⟩
              · simp [NcvDisplayCandidate.associateIf, hassociated]
              · simp [gopRank, NcvDisplayCandidate.associateIf, hknown]

/-- Two displays, and one graphics output on the second. -/
def gopRecords : List PciRecord := buildRecords [vgaDisplay 0 0x18, vgaDisplay 1 0]

def gopItems : List NcvDisplayCandidate :=
  (reportRomCandidates { exposed := fun _ => ⟨0, []⟩, granted := fun _ => true } sampleCore gopRecords).displays.items

def gopAnswers : List GopAnswer := [⟨11, .success, 1, .success, none⟩]

theorem gopOwnership_exact_one : ∃ candidate candidate', gopItems[1]? = some candidate ∧
    (reportGopOwnership .success gopAnswers gopRecords gopItems)[1]? = some candidate' ∧
    GopReport .success gopAnswers gopRecords gopItems candidate candidate' ∧ candidate'.gopAssociated = true := by
  have hlocations : LocationsDistinct (gopRecords.map PciRecord.toPciDeviceRecord) := by
    unfold LocationsDistinct
    decide +kernel
  obtain ⟨candidate, hplace⟩ : ∃ candidate, gopItems[1]? = some candidate :=
    Option.isSome_iff_exists.mp (by decide +kernel)
  obtain ⟨candidate', hat, hreport⟩ :=
    @gopOwnership_exact _ _ _ gopAnswers .success hlocations 1 candidate hplace
  have hmarked : ((reportGopOwnership .success gopAnswers gopRecords gopItems)[1]?).map
      NcvDisplayCandidate.gopAssociated = some true := by
    decide +kernel
  have hmarked' : candidate'.gopAssociated = true := by
    rw [show (reportGopOwnership .success gopAnswers gopRecords gopItems)[1]? = some candidate' from hat] at hmarked
    exact Option.some.inj hmarked
  exact ⟨candidate, candidate', hplace, hat, hreport, hmarked'⟩

end CsmVgaSelector
