import CsmVgaSelector.Proof.DevOrderFormat

/-!
# The capture of the LegacyDevOrder variable

When its calls succeed, the capture is a function of the variable: an order of the format is kept with the
ranks it gives, and of anything else nothing is kept.
-/

namespace CsmVgaSelector

section

variable {read : Except EfiStatus (UInt32 × List UInt8)} {journal : List BbsTable} {s : BootState}

/-- The order of this variable that the capture keeps. -/
def keptOrder (journal : List BbsTable) :
    Except EfiStatus (UInt32 × List UInt8) → Option (UInt32 × List UInt8 × DevOrderScan)
  | .error _ => none
  | .ok (attributes, bytes) =>
      if attributes &&& variableBootserviceAccess = 0 then none
      else (walkLegacyDevOrder journal bytes).map fun scan => (attributes, bytes, scan)

/-- The context without an order, or with the order that is kept. -/
def withOrder (context : BootTargetContext) :
    Option (UInt32 × List UInt8 × DevOrderScan) → BootTargetContext
  | none => { context with legacyDevOrderPresent := false, legacyDevOrderUsable := false }
  | some (attributes, bytes, scan) =>
      { context with
        legacyDevOrderPresent := true
        legacyDevOrderUsable := true
        legacyDevOrderAttributes := attributes
        legacyDevOrderData := some bytes
        legacyDevOrderCrc32 := legacyBootCrc32 bytes
        legacyDevOrderRanks := some scan.ranks
        legacyDevOrderDisabled := some scan.disabled }

/-- What the capture starts from: a journalled table, and no order. -/
structure CanCapture (journal : List BbsTable) (context : BootTargetContext) : Prop where
  journalled : context.bbsJournal = some journal
  count : context.bbsCount = journal.length
  nonempty : journal ≠ []
  bounded : journal.length ≤ maxBbsEntries
  unused : context.legacyDevOrderUsable = false
  empty : context.legacyDevOrderData = none ∧ context.legacyDevOrderRanks = none ∧
    context.legacyDevOrderDisabled = none

theorem wp_fallback_captured :
    legacyDevOrderFallback.Wp (Succeeds read)
      (fun _ s' => s'.context = withOrder s.context none) s := by
  simp only [legacyDevOrderFallback, updateContext, Prog.wp_bind, Prog.wp_modify, Prog.wp_lift]
  exact Query.wp_of_forall fun _ => rfl

/-- The read gives the variable. -/
theorem wp_readLegacyDevOrder : readLegacyDevOrder.Wp (Succeeds read) (fun given => given = read) s :=
  fun _ hanswer => hanswer.variableRead

theorem wp_allocatePool : allocatePool.Wp (Succeeds read) (fun granted => granted = true) s :=
  fun _ hanswer => hanswer.granted

/-- The capture keeps the order of the variable it reads. -/
theorem wp_capture (hcan : CanCapture journal s.context) :
    legacyBootCaptureLegacyDevOrder.Wp (Succeeds read)
      (fun _ s' => s'.context = withOrder s.context (keptOrder journal read)) s := by
  obtain ⟨hdata, hranks, hdisabled⟩ := hcan.empty
  have hguard : ¬ (s.context.bbsCount = 0 ∨ s.context.bbsCount > maxBbsEntries ∨
      s.context.legacyDevOrderData.isSome ∨ s.context.legacyDevOrderRanks.isSome ∨
      s.context.legacyDevOrderDisabled.isSome) := by
    have hbounded := hcan.bounded
    have hpositive := List.length_pos_iff.mpr hcan.nonempty
    rw [hdata, hranks, hdisabled, hcan.count]
    simp only [Option.isSome_none, Bool.false_eq_true, or_false]
    omega
  unfold legacyBootCaptureLegacyDevOrder
  refine Prog.Wp.bind_get ?_
  dsimp only
  rw [hcan.journalled]
  dsimp only
  rw [if_neg hguard, Prog.wp_bind, Prog.wp_lift]
  refine wp_readLegacyDevOrder.mono ?_
  rintro given rfl
  cases given with
  | error status => exact wp_fallback_captured
  | ok content =>
      obtain ⟨attributes, bytes⟩ := content
      dsimp only [keptOrder]
      by_cases haccess : attributes &&& variableBootserviceAccess = 0
      · rw [if_pos haccess, if_pos haccess]
        exact wp_fallback_captured
      rw [if_neg haccess, if_neg haccess, Prog.wp_bind, Prog.wp_lift]
      refine wp_allocatePool.mono ?_
      rintro _ rfl
      rw [Prog.wp_bind, Prog.wp_lift]
      refine wp_allocatePool.mono ?_
      rintro _ rfl
      rw [if_neg (by decide), Prog.wp_bind, Prog.wp_lift]
      refine parseLegacyDevOrder_gives.mono fun result hresult => ?_
      rw [← hresult]
      cases result with
      | error status => exact wp_fallback_captured
      | ok scan =>
          simp only [updateContext, Prog.wp_bind, Prog.wp_modify, Prog.wp_lift]
          refine Query.wp_of_forall fun status => ?_
          split
          · exact rfl
          · exact Prog.wp_lift.mpr (Query.wp_of_forall fun _ => rfl)

/-! ### The format decides -/

theorem keptOrder_iff {kept : UInt32 × List UInt8 × DevOrderScan} :
    keptOrder journal read = some kept ↔
      ∃ attributes bytes entries, read = .ok (attributes, bytes) ∧
        attributes &&& variableBootserviceAccess ≠ 0 ∧ UsableOrder journal bytes entries ∧
        kept = (attributes, bytes, scanOf journal (typesOf entries).reverse (wordsOf entries)) := by
  cases read with
  | error status => simp [keptOrder]
  | ok content =>
      obtain ⟨attributes, bytes⟩ := content
      rw [keptOrder]
      by_cases haccess : attributes &&& variableBootserviceAccess = 0
      · rw [if_pos haccess]
        refine iff_of_false (by simp) ?_
        rintro ⟨_, _, entries, ⟨⟩, haccess', -⟩
        exact haccess' haccess
      rw [if_neg haccess, Option.map_eq_some_iff]
      constructor
      · rintro ⟨scan, hscan, rfl⟩
        obtain ⟨entries, hentries, rfl⟩ := walkLegacyDevOrder_iff.mp hscan
        exact ⟨attributes, bytes, entries, rfl, haccess, hentries, rfl⟩
      · rintro ⟨_, _, entries, ⟨⟩, -, hentries, rfl⟩
        exact ⟨_, walkLegacyDevOrder_iff.mpr ⟨entries, hentries, rfl⟩, rfl⟩

theorem withOrder_usable {context : BootTargetContext}
    {kept : Option (UInt32 × List UInt8 × DevOrderScan)} :
    (withOrder context kept).legacyDevOrderUsable = true ↔ ∃ order, kept = some order := by
  cases kept with
  | none => exact iff_of_false Bool.false_ne_true (by simp)
  | some order => exact iff_of_true rfl ⟨order, rfl⟩

end

/-- **The capture of the LegacyDevOrder variable.** When its calls succeed, the order is usable exactly when
the variable may be read by boot services and is of the format; then the context holds the variable and the
ranks and marks of its words, and otherwise none of the three. What it keeps is what a scan gives that reads
inside the variable only. -/
theorem devOrderCapture_exact {read : Except EfiStatus (UInt32 × List UInt8)} {journal : List BbsTable}
    {s : BootState} {answers : Nat → FirmwareAnswer} (hcan : CanCapture journal s.context)
    (hanswers : ∀ n, Succeeds read (answers n)) :
    let context := (legacyBootCaptureLegacyDevOrder.run answers s).2.context
    (context.legacyDevOrderUsable = true ↔
        ∃ attributes bytes entries, read = .ok (attributes, bytes) ∧
          attributes &&& variableBootserviceAccess ≠ 0 ∧ UsableOrder journal bytes entries) ∧
      (∀ attributes bytes entries, read = .ok (attributes, bytes) →
        attributes &&& variableBootserviceAccess ≠ 0 → UsableOrder journal bytes entries →
        context.legacyDevOrderData = some bytes ∧
          ∃ ranks disabled, context.legacyDevOrderRanks = some ranks ∧
            context.legacyDevOrderDisabled = some disabled ∧
            RanksOf journal (wordsOf entries) ranks disabled) ∧
      (context.legacyDevOrderUsable = false → context.legacyDevOrderData = none ∧
        context.legacyDevOrderRanks = none ∧ context.legacyDevOrderDisabled = none) ∧
      ∀ attributes bytes, read = .ok (attributes, bytes) →
        ∃ found, Peek.Yields (InBytes bytes) (byteAt bytes) (peekLegacyDevOrder journal bytes.length)
            (legacyBootCrc32 bytes, found) ∧
          (attributes &&& variableBootserviceAccess ≠ 0 →
            context.legacyDevOrderRanks = found.map (·.ranks) ∧
              context.legacyDevOrderDisabled = found.map (·.disabled)) := by
  have hcontext : (legacyBootCaptureLegacyDevOrder.run answers s).2.context =
      withOrder s.context (keptOrder journal read) := (wp_capture hcan).run hanswers
  dsimp only
  rw [hcontext]
  refine ⟨?_, ?_, ?_, ?_⟩
  · rw [withOrder_usable]
    constructor
    · rintro ⟨order, horder⟩
      obtain ⟨attributes, bytes, entries, hread, haccess, hentries, -⟩ := keptOrder_iff.mp horder
      exact ⟨attributes, bytes, entries, hread, haccess, hentries⟩
    · rintro ⟨attributes, bytes, entries, hread, haccess, hentries⟩
      exact ⟨_, keptOrder_iff.mpr ⟨attributes, bytes, entries, hread, haccess, hentries, rfl⟩⟩
  · intro attributes bytes entries hread haccess hentries
    rw [keptOrder_iff.mpr ⟨attributes, bytes, entries, hread, haccess, hentries, rfl⟩]
    exact ⟨rfl, _, _, rfl, rfl, hentries.ranksOf hcan.bounded⟩
  · intro hunused
    cases hkept : keptOrder journal read with
    | none => exact hcan.empty
    | some order =>
        rw [hkept] at hunused
        cases hunused
  · rintro attributes bytes rfl
    refine ⟨_, peekLegacyDevOrder_yields, fun haccess => ?_⟩
    rw [keptOrder, if_neg haccess]
    cases walkLegacyDevOrder journal bytes with
    | none => exact hcan.empty.2
    | some scan => exact ⟨rfl, rfl⟩

/-- Two disks, of which the order begins with the second and disables the first. -/
def twoDisks : List BbsTable :=
  [1, 2].map fun bootPriority => { (default : BbsTable) with bootPriority, deviceType := bbsHardDisk }

def twoDisksOrder : List UInt8 := [2, 6, 0, 1, 0, 0, 0xFF]

def twoDisksEntries : List DevOrderEntry := [⟨2, [1, 0xFF00]⟩]

theorem twoDisks_usable : UsableOrder twoDisks twoDisksOrder twoDisksEntries where
  bytes_eq := by decide
  lengths := by decide
  types := by decide
  names := by
    have hsecond : NamesRow twoDisks 2 1 := ⟨by decide, by decide, by decide, by decide⟩
    have hfirst : NamesRow twoDisks 2 0xFF00 := ⟨by decide, by decide, by decide, by decide⟩
    rw [twoDisksEntries, List.forall_mem_singleton, List.forall_mem_cons, List.forall_mem_singleton]
    exact ⟨hsecond, hfirst⟩
  distinct := by decide
  covers := by decide

def twoDisksState : BootState where
  context := { bbsCount := 2, bbsJournal := some twoDisks }
  live := twoDisks
  rom := .reset

def twoDisksAnswer : FirmwareAnswer where
  status := .success
  granted := true
  memory := { readableBytes := fun _ => 0, byte := fun _ => 0 }
  variableRead := .ok (2, twoDisksOrder)
  stored := none
  bbsInfo := { hddCount := 0, hddInfo := 0, bbsTable := 0, table := [] }
  rom := .reset
  candidate :=
    { isLegacy := false
      isActive := false
      number := 0
      attributes := 0
      description := none
      devicePath := none
      devicePathCrc32 := 0
      bbsDeviceType := 0
      bbsStatusFlag := 0
      bbsDescription := []
      optionalData := none
      optionalDataCrc32 := 0 }

theorem devOrderCapture_twoDisks :
    let context := (legacyBootCaptureLegacyDevOrder.run (fun _ => twoDisksAnswer) twoDisksState).2.context
    context.legacyDevOrderUsable = true ∧ context.legacyDevOrderData = some twoDisksOrder := by
  have hcan : CanCapture twoDisks twoDisksState.context :=
    ⟨rfl, rfl, by decide, by decide, rfl, rfl, rfl, rfl⟩
  have hcapture := @devOrderCapture_exact (.ok (2, twoDisksOrder)) twoDisks twoDisksState
    (fun _ => twoDisksAnswer) hcan fun _ => ⟨rfl, rfl, rfl⟩
  exact ⟨hcapture.1.mpr ⟨2, twoDisksOrder, twoDisksEntries, rfl, by decide, twoDisks_usable⟩,
    (hcapture.2.1 2 twoDisksOrder twoDisksEntries rfl (by decide) twoDisks_usable).1⟩

end CsmVgaSelector
