import CsmVgaSelector.Proof.Discovery
import CsmVgaSelector.Proof.DiskAgreement

/-!
# The row of the disk

A discovery counts the rows that are the configured disk, and those of them that can be attempted. It succeeds
only with one of each, so that the row it leaves in the context is the disk, and no other row of the table is
(`wp_legacyBootBootTargetDiscover_onlyRow`).
-/

namespace CsmVgaSelector

variable {A : FirmwareAnswer → Prop} {disk : DiskTarget} {boot boot' : BootState} {memory : FarMemory}
  {rows : List Nat} {strings : List StringSnapshot}

/-! ### The strings of the rows -/

theorem length_recordStrings : (recordStrings memory boot rows strings).length = strings.length := by
  induction rows generalizing strings with
  | nil => rfl
  | cons index rest ih =>
      have hrest := @ih (strings.set index (currentStrings boot.rom memory boot.live[index]!))
      rwa [List.length_set] at hrest

/-- The strings of a row that is not among these are as they were. -/
theorem getElem?_recordStrings_of_notMem {index : Nat} (h : index ∉ rows) :
    (recordStrings memory boot rows strings)[index]? = strings[index]? := by
  induction rows generalizing strings with
  | nil => rfl
  | cons first rest ih =>
      rw [List.mem_cons, not_or] at h
      have hrest := @ih (strings.set first (currentStrings boot.rom memory boot.live[first]!)) h.2
      rwa [List.getElem?_set_ne (Ne.symm h.1)] at hrest

theorem getElem?_recordStrings {index : Nat} (h : index ∈ rows) (hindex : index < strings.length) :
    (recordStrings memory boot rows strings)[index]? =
      some (currentStrings boot.rom memory boot.live[index]!) := by
  induction rows generalizing strings with
  | nil => exact absurd h List.not_mem_nil
  | cons first rest ih =>
      by_cases hrest : index ∈ rest
      case pos => exact ih hrest (by rwa [List.length_set])
      case neg =>
        obtain rfl := (List.mem_cons.mp h).resolve_right hrest
        have hkept := @getElem?_recordStrings_of_notMem boot memory rest
          (strings.set index (currentStrings boot.rom memory boot.live[index]!)) index hrest
        rwa [List.getElem?_set_self hindex] at hkept

/-- Every row of the table has been recorded. -/
theorem recordStrings_range (h : strings.length = boot.live.length) :
    recordStrings memory boot (List.range boot.live.length) strings =
      boot.live.map (currentStrings boot.rom memory) := by
  refine List.ext_getElem? fun index => ?_
  rw [List.getElem?_map]
  by_cases hindex : index < boot.live.length
  case pos =>
    rw [getElem?_recordStrings (List.mem_range.mpr hindex) (by omega), List.getElem?_eq_getElem hindex,
      getElem!_pos boot.live index hindex, Option.map_some]
  case neg =>
    rw [List.getElem?_eq_none (by rw [length_recordStrings]; omega), List.getElem?_eq_none (by omega),
      Option.map_none]

/-! ### The row that is singled out -/

/-- Of all rows of the table, as their strings are in this memory, the context's is the disk. -/
structure SinglesOut (memory : FarMemory) (disk : DiskTarget) (boot : BootState) : Prop where
  strings : ∀ strings ∈ boot.context.bbsDiscoveryStrings,
    strings = boot.live.map (currentStrings boot.rom memory)
  inTable : boot.context.liveBbsIndex < boot.live.length
  entry : boot.context.liveBbsEntry = boot.live[boot.context.liveBbsIndex]!
  attempt : legacyBootSelectedDiskCanAttempt boot.rom boot.context.liveBbsEntry = true
  only : ∀ index < boot.live.length,
    Identified memory disk boot index = true ↔ index = boot.context.liveBbsIndex

/-- What the row was singled out from. -/
def BootState.liveRow (boot : BootState) :=
  (boot.live, boot.rom, boot.context.bbsDiscoverySnapshot, boot.context.bbsDiscoveryStrings,
    boot.context.liveBbsIndex, boot.context.liveBbsEntry)

theorem SinglesOut.of_liveRow (h : SinglesOut memory disk boot) (hsame : boot'.liveRow = boot.liveRow) :
    SinglesOut memory disk boot' := by
  simp only [BootState.liveRow, Prod.mk.injEq] at hsame
  obtain ⟨hlive, hrom, -, hstrings, hindex, hentry⟩ := hsame
  obtain ⟨hstrings', hinTable, hentry', hattempt, honly⟩ := h
  refine ⟨?_, ?_, ?_, ?_, ?_⟩
  · rwa [hstrings, hlive, hrom]
  · rwa [hindex, hlive]
  · rwa [hentry, hindex, hlive]
  · rwa [hrom, hentry]
  · unfold Identified at honly ⊢
    rwa [hlive, hindex]

/-- Counts of one leave one row, that is the disk and can be attempted. -/
theorem Correlated.singlesOut {counts : MatchCounts}
    (h : Correlated memory disk boot (List.range boot.live.length) ⟨0, 0⟩ counts boot')
    (hstrings : ∀ strings ∈ boot.context.bbsDiscoveryStrings, strings.length = boot.live.length)
    (hidentity : counts.identityMatches ≤ 1) (hmatch : counts.matchCount = 1) :
    SinglesOut memory disk boot' := by
  obtain ⟨hidentified, -⟩ := h.same
  have hmatches := h.matchCount
  have hidentities := h.identityMatches
  rw [hmatch, Nat.zero_add, List.countP_eq_length_filter] at hmatches
  rw [Nat.zero_add, List.countP_eq_length_filter] at hidentities
  obtain ⟨row, hrow⟩ := List.length_eq_one_iff.mp hmatches.symm
  obtain ⟨hindex, hentry⟩ := h.selected row hrow
  obtain ⟨hinRange, hmatched⟩ := List.mem_filter.mp (hrow ▸ List.mem_singleton_self row)
  rw [Matched, Bool.and_eq_true] at hmatched
  -- Two rows that are the disk would have been counted twice.
  have hone : (List.range boot.live.length).filter (Identified memory disk boot) = [row] := by
    have hmem := List.mem_filter.mpr ⟨hinRange, hmatched.1⟩
    obtain ⟨other, hone⟩ := List.length_eq_one_iff.mp
      (Nat.le_antisymm (hidentities ▸ hidentity) (List.length_pos_of_mem hmem))
    rw [hone] at hmem ⊢
    rw [List.mem_singleton.mp hmem]
  refine ⟨?_, ?_, ?_, ?_, ?_⟩
  · intro strings hmem
    rw [h.strings] at hmem
    obtain ⟨fresh, hfresh, rfl⟩ := Option.mem_map.mp hmem
    rw [recordStrings_range (hstrings fresh hfresh), h.live, h.rom]
  · rw [hindex, h.live]
    exact List.mem_range.mp hinRange
  · rw [hentry, hindex, h.live]
  · rw [h.rom, hentry]
    exact hmatched.2
  · intro index hother
    rw [h.live] at hother
    rw [hidentified, hindex]
    constructor
    · intro hdisk
      exact List.mem_singleton.mp (hone ▸ List.mem_filter.mpr ⟨List.mem_range.mpr hother, hdisk⟩)
    · rintro rfl
      exact hmatched.1

/-- A status without which nothing is promised. -/
def UnlessError (P : BootState → Prop) (status : EfiStatus) (boot : BootState) : Prop :=
  status.isError = false → P boot

theorem unlessError_of_error {P : BootState → Prop} {status : EfiStatus} (h : status.isError = true) :
    UnlessError P status boot := fun hgood => by
  rw [h] at hgood
  cases hgood

/-- The table has been counted, and there is room for the strings of its rows. -/
structure Counted (boot : BootState) : Prop where
  count : boot.context.bbsCount = boot.live.length
  room : ∀ strings ∈ boot.context.bbsDiscoveryStrings, strings.length = boot.live.length

/-- A correlation that succeeds has singled out the disk. -/
theorem wp_legacyBootLogAndCorrelateLiveBbs_singlesOut (hcounted : Counted boot) :
    (legacyBootLogAndCorrelateLiveBbs memory disk).Wp A (UnlessError (SinglesOut memory disk)) boot := by
  unfold legacyBootLogAndCorrelateLiveBbs
  refine .bind_get (.ite (fun _ => .pure (unlessError_of_error rfl)) fun _ => ?_)
  rw [hcounted.count]
  refine Prog.Wp.bind wp_correlateRows fun result boot₁ hresult => ?_
  cases result with
  | error status => exact .pure (unlessError_of_error hresult.1)
  | ok counts =>
      refine .bind_query fun _ => ?_
      refine .ite (fun _ => .bind_query fun _ => .pure (unlessError_of_error rfl)) fun hidentity => ?_
      refine .ite (fun _ => .ite (fun _ => .bind_query fun _ => .pure (unlessError_of_error rfl)) fun _ =>
        .pure (unlessError_of_error rfl)) fun _ => ?_
      refine .ite (fun _ => .pure (unlessError_of_error rfl)) fun hmatch => .bind_get ?_
      have hsingles := hresult.singlesOut hcounted.room (Nat.not_lt.mp hidentity) (not_not.mp hmatch)
      refine .ite (fun _ => .bind_query fun _ => .ite (fun herror => .pure (unlessError_of_error herror)) fun _ => ?_)
        fun _ => ?_
      all_goals exact .pure fun _ => hsingles

/-- The copies are those of the table, and of its rows only the context's is the disk. -/
structure OnlyRow (disk : DiskTarget) (boot : BootState) : Prop where
  table : boot.context.bbsDiscoverySnapshot = some boot.live
  row : ∃ memory, SinglesOut memory disk boot

theorem OnlyRow.of_liveRow (h : OnlyRow disk boot) (hsame : boot'.liveRow = boot.liveRow) : OnlyRow disk boot' := by
  obtain ⟨htable, memory, hrow⟩ := h
  refine ⟨?_, memory, hrow.of_liveRow hsame⟩
  simp only [BootState.liveRow, Prod.mk.injEq] at hsame
  rw [hsame.2.2.1, htable, hsame.1]

theorem keeps_liveRow_move (candidate : BootCandidate) :
    Prog.Keeps BootState.liveRow (legacyBootMoveCandidateToContext candidate) := by
  unfold legacyBootMoveCandidateToContext
  refine .bind .get fun _ => .ite (.pure _) (.ite (.bind (.lift _) fun _ => .pure _) ?_)
  refine .bind (.modify fun _ => rfl) fun _ => .bind (.lift _) fun _ => .bind (.lift _) fun _ => ?_
  exact .ite (.pure _) (.lift _)

theorem wp_correlateSnapshot_onlyRow (hcounted : Counted boot) :
    (correlateSnapshot memory disk).Wp A (UnlessError (OnlyRow disk)) boot := by
  unfold correlateSnapshot
  refine Prog.Wp.bind (wp_legacyBootLogAndCorrelateLiveBbs_singlesOut hcounted) fun status boot₁ h₁ => ?_
  refine .ite (fun herror => .pure (unlessError_of_error herror)) fun hgood => ?_
  refine Prog.Wp.bind (P := fun _ => SinglesOut memory disk) ?_ fun _ boot₂ h₂ => ?_
  · exact (h₁ (by simpa using hgood)).of_liveRow rfl
  refine .bind_query fun _ => .bind_get ?_
  refine .ite (fun _ => .bind_query fun _ => .pure (unlessError_of_error rfl)) fun htable => ?_
  exact .pure fun _ => ⟨not_not.mp htable, memory, h₂⟩

theorem wp_takeSnapshot_counted {info : BbsInfo} (hlive : boot.live = info.table)
    (hcount : boot.context.bbsCount = info.table.length) :
    (takeSnapshot info).Wp A (UnlessError Counted) boot := by
  unfold takeSnapshot
  refine .bind_query fun snapshotGranted => .bind_query fun stringsGranted => ?_
  refine Prog.Wp.bind (P := fun _ => Counted) ⟨hcount.trans (by rw [hlive]), ?_⟩ fun _ boot₁ h₁ => ?_
  · intro strings hstrings
    dsimp only at hstrings
    split at hstrings
    case isFalse => cases hstrings
    case isTrue =>
      cases hstrings
      rw [List.length_replicate, hlive]
  refine .ite (fun _ => .pure (unlessError_of_error rfl)) fun _ => ?_
  refine Prog.Wp.bind (P := fun _ => Counted) ⟨h₁.count, h₁.room⟩ fun _ boot₂ h₂ => ?_
  exact .bind_query fun _ => .pure fun _ => h₂

theorem wp_snapshotAndCorrelate_onlyRow {info : BbsInfo} {candidate : BootCandidate}
    (hlive : boot.live = info.table) (hcount : boot.context.bbsCount = info.table.length) :
    (snapshotAndCorrelate disk info candidate).Wp A (UnlessError (OnlyRow disk)) boot := by
  unfold snapshotAndCorrelate
  refine .bind_query fun captured => .ite (fun herror => .pure (unlessError_of_error herror)) fun _ => ?_
  refine .bind_query fun _ => .ite (fun _ => ?_) fun _ => ?_
  · exact Prog.wp_lift.mpr (wp_logFailure (unlessError_of_error rfl))
  · refine Prog.Wp.bind (wp_takeSnapshot_counted hlive hcount) fun status boot₁ h₁ => ?_
    refine .ite (fun herror => .pure (unlessError_of_error herror)) fun hgood => ?_
    refine Prog.Wp.bind (wp_correlateSnapshot_onlyRow (h₁ (by simpa using hgood))) fun status boot₂ h₂ => ?_
    refine .ite (fun herror => .bind_query fun _ => .pure (unlessError_of_error herror)) fun hgood => ?_
    have honly := h₂ (by simpa using hgood)
    refine Prog.Wp.bind ((keeps_liveRow_move candidate).wp boot₂) fun status boot₃ hsame => ?_
    refine .ite (fun herror => .bind_query fun _ => .pure (unlessError_of_error herror)) fun _ => ?_
    exact .pure fun _ => honly.of_liveRow hsame

/-- A discovery that succeeds has found the one row that is the disk. -/
theorem wp_legacyBootBootTargetDiscover_onlyRow {request : DiscoverRequest} :
    (legacyBootBootTargetDiscover request).Wp A (UnlessError (OnlyRow request.target)) boot := by
  have hany : ∀ {α : Type} (m : Boot α) (boot : BootState), m.Wp A (fun _ _ => True) boot := fun m boot =>
    Ask.all_of_forall fun _ => trivial
  unfold legacyBootBootTargetDiscover
  refine .ite (fun _ => .pure (unlessError_of_error rfl)) fun _ => .bind_get ?_
  refine .ite (fun _ => .pure (unlessError_of_error rfl)) fun _ => ?_
  refine Prog.Wp.bind (hany _ _) fun _ boot₁ _ => ?_
  refine .bind_query fun _ => .ite (fun herror => .pure (unlessError_of_error herror)) fun _ => ?_
  refine .bind_query fun _ => .ite (fun _ => .bind_query fun _ => .pure (unlessError_of_error rfl)) fun _ => ?_
  refine .bind_query fun _ => .ite (fun _ => .bind_query fun _ => .pure (unlessError_of_error rfl)) fun _ => ?_
  refine .bind_query fun _ => .bind_query fun status => ?_
  refine .ite (fun herror => .pure (unlessError_of_error herror)) fun _ => ?_
  refine Prog.Wp.bind (hany _ _) fun _ boot₂ _ => ?_
  refine Prog.Wp.bind (P := fun (result : EfiStatus × BbsInfo) (boot' : BootState) =>
    boot'.live = result.2.table) (fun answer _ => rfl) fun result boot₃ h₃ => ?_
  refine Prog.Wp.bind (P := fun _ (boot' : BootState) => boot'.live = result.2.table) h₃ fun _ boot₄ h₄ => ?_
  refine .bind_query fun _ => .bind_query fun flushStatus => ?_
  refine .ite (fun herror => .pure (unlessError_of_error herror)) fun _ => ?_
  refine .ite (fun herror => .pure (unlessError_of_error herror)) fun _ => ?_
  refine .ite (fun _ => Prog.wp_lift.mpr (wp_logFailure (unlessError_of_error rfl))) fun _ => ?_
  refine Prog.Wp.bind (P := fun _ (boot' : BootState) => boot'.live = result.2.table) (fun answer _ => h₄) ?_
  intro status boot₅ h₅
  refine .ite (fun herror => .pure (unlessError_of_error herror)) fun _ => ?_
  refine Prog.Wp.bind (P := fun _ (boot' : BootState) => boot'.live = result.2.table ∧
    boot'.context.bbsCount = result.2.table.length) ⟨h₅, rfl⟩ fun _ boot₆ h₆ => ?_
  refine Prog.Wp.bind (wp_snapshotAndCorrelate_onlyRow h₆.1 h₆.2) fun status boot₇ h₇ => ?_
  refine .ite (fun herror => .pure (unlessError_of_error herror)) fun hgood => ?_
  refine wp_completeDiscovery.mono ?_
  rintro status boot₈ rfl
  exact fun _ => (h₇ (by simpa using hgood)).of_liveRow rfl

end CsmVgaSelector
