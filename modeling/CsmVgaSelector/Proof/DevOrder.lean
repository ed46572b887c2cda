import CsmVgaSelector.Bbs.DevOrder
import Mathlib.Data.Nat.Init
import Mathlib.Order.Basic

/-!
# The captured order

A scan of the LegacyDevOrder variable gives each row it names the next rank, and it is used only when it
has named every row of valid priority. So a usable order has a rank for each of these rows, and no two
ranks are alike (`wp_capture_orders`).
-/

namespace CsmVgaSelector

variable {α β : Type} {s : BootState} {journal : List BbsTable}

/-! ### Steps of the scan -/

/-- A step of the scan that does not end it leaves a value that satisfies `Q`. -/
def DevOrderStep.Ensures (step : DevOrderStep α) (Q : α → Prop) (s : BootState) : Prop :=
  Query.Wp (fun _ => True) (ExceptT.run step) (fun result => ∀ value, result = .ok value → Q value) s

namespace DevOrderStep

theorem ensures_pure {value : α} {Q : α → Prop} (h : Q value) :
    Ensures (pure value : DevOrderStep α) Q s := by
  rintro _ ⟨⟩
  exact h

theorem ensures_bind {step : DevOrderStep α} {next : α → DevOrderStep β} {P : α → Prop}
    {Q : β → Prop} (hstep : step.Ensures P s) (hnext : ∀ value, P value → (next value).Ensures Q s) :
    (step >>= next).Ensures Q s := by
  rw [Ensures, ExceptT.run_bind, Query.wp_bind]
  refine hstep.mono fun result hresult => ?_
  cases result with
  | ok value => exact hnext value (hresult value rfl)
  | error status =>
      rintro _ ⟨⟩

theorem ensures_log : devOrderLog.Ensures (fun _ => True) s :=
  Query.wp_of_forall fun _ _ _ => trivial

theorem ensures_malformed {Q : α → Prop} : (devOrderMalformed : DevOrderStep α).Ensures Q s := by
  unfold devOrderMalformed
  refine ensures_bind (P := fun _ => True) (Query.wp_of_forall fun _ _ _ => trivial) fun _ _ => ?_
  rintro _ ⟨⟩

end DevOrderStep

/-! ### Ranks -/

/-- What a scan has given out so far. -/
structure ScanOk (journal : List BbsTable) (scan : DevOrderScan) : Prop where
  ranks_length : scan.ranks.length = journal.length
  seen_length : scan.seenIndex.length = journal.length
  count : scan.globalRank.toNat = scan.seenIndex.count true
  below : ∀ index : Nat, scan.seenIndex[index]! = true → scan.ranks[index]! < scan.globalRank
  distinct : ∀ index index' : Nat, scan.seenIndex[index]! = true → scan.seenIndex[index']! = true →
    scan.ranks[index]! = scan.ranks[index']! → index = index'

theorem scanOk_start :
    ScanOk journal
      { seenType := []
        seenIndex := List.replicate journal.length false
        ranks := List.replicate journal.length 0xFFFF
        disabled := List.replicate journal.length false
        globalRank := 0 } := by
  have hnone : ∀ index : Nat, (List.replicate journal.length false)[index]! = false := by
    intro index
    rw [List.getElem!_eq_getElem?_getD, List.getElem?_replicate]
    split <;> rfl
  refine ⟨by simp, by simp, ?_, fun index hseen => ?_, fun index _ hseen => ?_⟩
  · simp [List.count_replicate]
  · simp [hnone] at hseen
  · simp [hnone] at hseen

/-- A row that is named for the first time is given the next rank. -/
theorem ScanOk.name {scan : DevOrderScan} {index : Nat} {disabled : List Bool}
    (h : ScanOk journal scan) (hindex : index < journal.length)
    (hnew : scan.seenIndex[index]! = false) (hmax : journal.length ≤ maxBbsEntries) :
    ScanOk journal
      { scan with
        seenIndex := scan.seenIndex.set index true
        ranks := scan.ranks.set index scan.globalRank
        disabled := disabled
        globalRank := scan.globalRank + 1 } := by
  have hseenIndex : index < scan.seenIndex.length := h.seen_length ▸ hindex
  have hranksIndex : index < scan.ranks.length := h.ranks_length ▸ hindex
  have hget : scan.seenIndex[index] = false := by simpa [hseenIndex] using hnew
  have hcount : scan.seenIndex.count true < journal.length := by
    have hle := List.count_le_length (a := true) (l := scan.seenIndex)
    rw [← h.seen_length]
    refine Nat.lt_of_le_of_ne hle fun heq => ?_
    have hall := List.count_eq_length.mp heq false (hget ▸ List.getElem_mem hseenIndex)
    cases hall
  have hnext : (scan.globalRank + 1).toNat = scan.globalRank.toNat + 1 := by
    have hbound := h.count
    have hmaximum : maxBbsEntries = 256 := rfl
    rw [UInt16.toNat_add]
    show (scan.globalRank.toNat + 1) % 65536 = _
    omega
  have hlt : scan.globalRank < scan.globalRank + 1 := by
    rw [UInt16.lt_iff_toNat_lt, hnext]
    omega
  have hold : ∀ other : Nat, other ≠ index →
      (scan.seenIndex.set index true)[other]! = scan.seenIndex[other]! ∧
        (scan.ranks.set index scan.globalRank)[other]! = scan.ranks[other]! := by
    intro other hother
    constructor <;> simp [List.getElem!_eq_getElem?_getD, List.getElem?_set_ne hother.symm]
  have hself : (scan.ranks.set index scan.globalRank)[index]! = scan.globalRank := by
    simp [hranksIndex]
  refine ⟨by simpa using h.ranks_length, by simpa using h.seen_length, ?_, ?_, ?_⟩
  · rw [hnext, h.count, List.count_set hseenIndex, hget]
    simp
  · intro other hseen
    by_cases hother : other = index
    · subst hother
      simpa [hranksIndex] using hlt
    · rw [(hold other hother).1] at hseen
      rw [(hold other hother).2]
      exact UInt16.lt_trans (h.below other hseen) hlt
  · intro other other' hseen hseen' hsame
    by_cases hother : other = index <;> by_cases hother' : other' = index
    · rw [hother, hother']
    · rw [(hold other' hother').1] at hseen'
      rw [hother, hself, (hold other' hother').2] at hsame
      have hbelow := h.below other' hseen'
      rw [← hsame] at hbelow
      exact absurd hbelow (UInt16.lt_irrefl _)
    · rw [(hold other hother).1] at hseen
      rw [hother', hself, (hold other hother).2] at hsame
      have hbelow := h.below other hseen
      rw [hsame] at hbelow
      exact absurd hbelow (UInt16.lt_irrefl _)
    · rw [(hold other hother).1] at hseen
      rw [(hold other' hother').1] at hseen'
      rw [(hold other hother).2, (hold other' hother').2] at hsame
      exact h.distinct other other' hseen hseen' hsame

/-! ### The scan -/

open DevOrderStep

theorem ensures_scanDevOrderData {bbsType : UInt8} {words : List UInt16} {scan : DevOrderScan}
    (h : ScanOk journal scan) (hmax : journal.length ≤ maxBbsEntries) :
    (scanDevOrderData journal bbsType words scan).Ensures (ScanOk journal) s := by
  induction words generalizing scan with
  | nil => exact ensures_pure h
  | cons word words ih =>
      unfold scanDevOrderData
      dsimp only
      split
      · exact ensures_malformed
      split
      · exact ensures_malformed
      · rename_i hrow
        split
        · exact ensures_malformed
        · rw [not_or, Nat.not_le, Bool.not_eq_true] at hrow
          exact ensures_bind ensures_log fun _ _ => ih (h.name hrow.1 hrow.2 hmax)

theorem ensures_scanDevOrder {bytes : List UInt8} {scan : DevOrderScan} (h : ScanOk journal scan)
    (hmax : journal.length ≤ maxBbsEntries) :
    (scanDevOrder journal bytes scan).Ensures (ScanOk journal) s := by
  induction hlength : bytes.length using Nat.strong_induction_on generalizing bytes scan with
  | _ length ih =>
      unfold scanDevOrder
      split
      · exact ensures_pure h
      · rename_i bbsType rest
        dsimp only
        split
        · exact ensures_malformed
        split
        · exact ensures_malformed
        split
        · exact ensures_malformed
        · refine ensures_bind ensures_log fun _ _ => ?_
          have hscan : ScanOk journal { scan with seenType := bbsType :: scan.seenType } :=
            ⟨h.ranks_length, h.seen_length, h.count, h.below, h.distinct⟩
          refine ensures_bind (ensures_scanDevOrderData hscan hmax) fun next hnext => ?_
          refine ih _ ?_ hnext rfl
          rw [List.length_cons] at hlength
          rw [List.length_drop]
          omega

/-- A rank for every row of valid priority, and no rank given twice. -/
structure Orders (journal : List BbsTable) (ranks : List UInt16) : Prop where
  below : ∀ index < journal.length,
    legacyBootBbsPriorityIsValid journal[index]!.bootPriority = true → ranks[index]! ≠ 0xFFFF
  distinct : ∀ index < journal.length, ∀ index' < journal.length,
    legacyBootBbsPriorityIsValid journal[index]!.bootPriority = true →
    legacyBootBbsPriorityIsValid journal[index']!.bootPriority = true →
      ranks[index]! = ranks[index']! → index = index'

theorem ScanOk.orders {scan : DevOrderScan} (h : ScanOk journal scan)
    (hcovers : devOrderCovers journal scan = true) : Orders journal scan.ranks := by
  have hseen : ∀ index < journal.length,
      legacyBootBbsPriorityIsValid journal[index]!.bootPriority = scan.seenIndex[index]! := by
    intro index hindex
    rw [devOrderCovers, beq_iff_eq] at hcovers
    rw [← hcovers]
    simp [hindex]
  constructor
  · intro index hindex hvalid hrank
    rw [hseen index hindex] at hvalid
    have hbelow := h.below index hvalid
    rw [hrank, UInt16.lt_iff_toNat_lt] at hbelow
    have hmaximum := scan.globalRank.toNat_lt
    have hlast : (0xFFFF : UInt16).toNat = 65535 := rfl
    omega
  · intro index hindex index' hindex' hvalid hvalid'
    rw [hseen index hindex] at hvalid
    rw [hseen index' hindex'] at hvalid'
    exact h.distinct index index' hvalid hvalid'

theorem ensures_parseLegacyDevOrder {liveBbsIndex : Nat} {bytes : List UInt8}
    (hmax : journal.length ≤ maxBbsEntries) :
    (parseLegacyDevOrder journal liveBbsIndex bytes).Wp (fun _ => True)
      (fun result => ∀ scan, result = .ok scan → Orders journal scan.ranks) s := by
  unfold parseLegacyDevOrder
  refine ensures_bind ensures_log fun _ _ => ?_
  refine ensures_bind (ensures_scanDevOrder scanOk_start hmax) fun scan hscan => ?_
  split
  case isTrue => exact ensures_malformed
  case isFalse hcovers =>
    have horders := hscan.orders (by simpa using hcovers)
    split
    · exact ensures_bind ensures_log fun _ _ => ensures_pure horders
    · exact ensures_pure horders

/-- **A usable order has been captured whole.** -/
theorem wp_capture_orders (hjournal : s.context.bbsJournal = some journal)
    (hcount : journal.length = s.context.bbsCount)
    (husable : s.context.legacyDevOrderUsable = false) :
    legacyBootCaptureLegacyDevOrder.Wp (fun _ => True) (fun _ s' =>
      s'.context.legacyDevOrderUsable = true →
        ∃ ranks disabled, s'.context.legacyDevOrderRanks = some ranks ∧
          s'.context.legacyDevOrderDisabled = some disabled ∧ Orders journal ranks) s := by
  have hunused : ∀ {s' : BootState}, s'.context.legacyDevOrderUsable = false →
      s'.context.legacyDevOrderUsable = true →
        ∃ ranks disabled, s'.context.legacyDevOrderRanks = some ranks ∧
          s'.context.legacyDevOrderDisabled = some disabled ∧ Orders journal ranks := by
    intro s' hnot husable'
    rw [hnot] at husable'
    cases husable'
  have hfallback : legacyDevOrderFallback.Wp (fun _ => True) (fun _ s' =>
      s'.context.legacyDevOrderUsable = true →
        ∃ ranks disabled, s'.context.legacyDevOrderRanks = some ranks ∧
          s'.context.legacyDevOrderDisabled = some disabled ∧ Orders journal ranks) s := by
    simp only [legacyDevOrderFallback, updateContext, Prog.wp_bind, Prog.wp_modify, Prog.wp_lift]
    exact Query.wp_of_forall fun _ hcontra => absurd hcontra Bool.false_ne_true
  unfold legacyBootCaptureLegacyDevOrder
  refine Prog.Wp.bind_get ?_
  dsimp only
  rw [hjournal]
  dsimp only
  split
  case isTrue => exact hunused husable
  case isFalse hguard =>
    simp only [not_or, Nat.not_lt] at hguard
    have hmax : journal.length ≤ maxBbsEntries := hcount ▸ hguard.2.1
    refine Prog.Wp.bind_query fun variable_ => ?_
    split
    case h_1 => exact hfallback
    split
    case isTrue => exact hfallback
    refine Prog.Wp.bind_query fun _ => Prog.Wp.bind_query fun _ => ?_
    split
    case isTrue => exact hunused husable
    rw [Prog.wp_bind, Prog.wp_lift]
    refine (ensures_parseLegacyDevOrder hmax).mono fun parsed hparsed => ?_
    split
    case h_1 => exact hfallback
    case h_2 scan =>
      simp only [updateContext, Prog.wp_bind, Prog.wp_modify, Prog.wp_lift]
      refine Query.wp_of_forall fun _ => ?_
      split
      · exact fun _ => ⟨_, _, rfl, rfl, hparsed scan rfl⟩
      · exact Prog.wp_lift.mpr (Query.wp_of_forall fun _ _ =>
          ⟨_, _, rfl, rfl, hparsed scan rfl⟩)

end CsmVgaSelector
