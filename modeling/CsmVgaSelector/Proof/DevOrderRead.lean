import CsmVgaSelector.Bbs.DevOrderRead
import CsmVgaSelector.Proof.BootOption
import Mathlib.Data.Nat.Init

/-!
# The scan of the LegacyDevOrder variable

Read with an offset or as a list, the variable gives the same scan: that of a plain function over its bytes.
The read stays inside the variable, and the capture, with every message logged, takes over what the function
gives.
-/

namespace CsmVgaSelector

open Peek

section

variable {journal : List BbsTable} {bbsType : UInt8} {scan : DevOrderScan} {bytes : List UInt8}
  {words : List UInt16} {offset count : Nat}

/-! ### The scan of a list -/

def walkDevOrderData (journal : List BbsTable) (bbsType : UInt8) :
    List UInt16 → DevOrderScan → Option DevOrderScan
  | [], scan => some scan
  | word :: words, scan =>
      (nameRow journal bbsType word scan).bind (walkDevOrderData journal bbsType words)

/-- The length that the entry at the head of these bytes gives, after its type. -/
def entryLength (rest : List UInt8) : Nat := (readLe16 rest 0).toNat

/-- The entry after its type does not fit. -/
def EntryMalformed (rest : List UInt8) : Prop :=
  rest.length < 2 ∨ entryLength rest < 2 ∨ entryLength rest % 2 ≠ 0 ∨ entryLength rest > rest.length

instance {rest : List UInt8} : Decidable (EntryMalformed rest) :=
  inferInstanceAs (Decidable (_ ∨ _ ∨ _ ∨ _))

def walkDevOrder (journal : List BbsTable) (bytes : List UInt8) (scan : DevOrderScan) :
    Option DevOrderScan :=
  match bytes with
  | [] => some scan
  | bbsType :: rest =>
      if EntryMalformed rest ∨ bbsType ∈ scan.seenType then none
      else
        (walkDevOrderData journal bbsType (dataWords ((rest.take (entryLength rest)).drop 2))
          { scan with seenType := bbsType :: scan.seenType }).bind
            (walkDevOrder journal (rest.drop (entryLength rest)))
  termination_by bytes.length

/-- The variable is refused, or scanned to its end. -/
def walkLegacyDevOrder (journal : List BbsTable) (bytes : List UInt8) : Option DevOrderScan :=
  (walkDevOrder journal bytes (startScan journal)).filter (devOrderCovers journal)

/-! ### Reads with an offset -/

theorem dataWords_slice (h : offset + 2 * count ≤ bytes.length) :
    dataWords (slice bytes offset (2 * count)) = wordsAt bytes offset count := by
  induction count generalizing offset with
  | zero => rfl
  | succ count ih =>
      have htwo : 2 * (count + 1) = 2 * count + 1 + 1 := rfl
      rw [htwo, slice_succ (by omega), slice_succ (by omega), dataWords, wordsAt_succ, ih (by omega)]
      rfl

theorem peekDevOrderData_yields (h : offset + 2 * count ≤ bytes.length) :
    Yields (InBytes bytes) (byteAt bytes) (peekDevOrderData journal bbsType offset count scan)
      (walkDevOrderData journal bbsType (wordsAt bytes offset count) scan) := by
  induction count generalizing offset scan with
  | zero => exact Yields.pure
  | succ count ih =>
      rw [peekDevOrderData, wordsAt_succ, walkDevOrderData]
      refine Yields.bind (peekWord_yields (by omega)) ?_
      cases nameRow journal bbsType (readLe16 bytes offset) scan with
      | none => exact Yields.pure
      | some scan => exact ih (by omega)

theorem peekDevOrder_yields (h : offset ≤ bytes.length) :
    Yields (InBytes bytes) (byteAt bytes) (peekDevOrder journal bytes.length offset scan)
      (walkDevOrder journal (bytes.drop offset) scan) := by
  induction hleft : bytes.length - offset using Nat.strong_induction_on generalizing offset scan with
  | _ left ih =>
  rw [peekDevOrder]
  by_cases hin : offset < bytes.length
  swap
  · rw [if_neg hin, List.drop_eq_nil_of_le (Nat.not_lt.mp hin), walkDevOrder]
    exact Yields.pure
  have hlength : entryLength (bytes.drop (offset + 1)) = (readLe16 bytes (offset + 1)).toNat :=
    congrArg UInt16.toNat readLe16_drop
  have htype : bytes[offset] = bytes[offset]! := by simp [hin]
  rw [if_pos hin, List.drop_eq_getElem_cons hin, walkDevOrder, htype, hlength]
  generalize hword : (readLe16 bytes (offset + 1)).toNat = length at hlength
  by_cases hshort : bytes.length - offset < 3
  · have hbad : EntryMalformed (bytes.drop (offset + 1)) := .inl (by rw [List.length_drop]; omega)
    rw [if_pos hshort, if_pos (.inl hbad)]
    exact Yields.pure
  rw [if_neg hshort]
  refine Yields.bind_peek hin (Yields.bind (peekWord_yields (by omega)) ?_)
  rw [hword, byteAt]
  have hmalformed : EntryMalformed (bytes.drop (offset + 1)) ↔
      length < 2 ∨ length % 2 ≠ 0 ∨ length > bytes.length - offset - 1 := by
    rw [EntryMalformed, hlength, List.length_drop]
    omega
  by_cases hbad : EntryMalformed (bytes.drop (offset + 1))
  · rw [if_pos (hmalformed.mp hbad), if_pos (.inl hbad)]
    exact Yields.pure
  rw [if_neg (mt hmalformed.mpr hbad)]
  rw [hmalformed, not_or, not_or, not_not] at hbad
  by_cases hseen : bytes[offset]! ∈ scan.seenType
  · rw [if_pos hseen, if_pos (.inr hseen)]
    exact Yields.pure
  rw [if_neg hseen, if_neg (not_or.mpr ⟨by rw [hmalformed]; omega, hseen⟩)]
  have hdata : ((bytes.drop (offset + 1)).take length).drop 2 =
      slice bytes (offset + 3) (2 * ((length - 2) / 2)) := by
    rw [List.drop_take, List.drop_drop, slice]
    congr 1
    omega
  rw [hdata, dataWords_slice (by omega), List.drop_drop, Nat.add_assoc]
  refine Yields.bind (peekDevOrderData_yields (by omega)) ?_
  cases walkDevOrderData journal bytes[offset]! (wordsAt bytes (offset + 3) ((length - 2) / 2))
      { scan with seenType := bytes[offset]! :: scan.seenType } with
  | none => exact Yields.pure
  | some scan => exact ih (bytes.length - (offset + (1 + length))) (by omega) (by omega) rfl

/-- Read where it stands, the variable gives the scan of its bytes. -/
theorem peekLegacyDevOrder_yields :
    Yields (InBytes bytes) (byteAt bytes) (peekLegacyDevOrder journal bytes.length)
      (legacyBootCrc32 bytes, walkLegacyDevOrder journal bytes) := by
  have hbytes := @peekBytes_yields bytes 0 bytes.length (by omega)
  have hscan := @peekDevOrder_yields journal (startScan journal) bytes 0 (Nat.zero_le _)
  rw [slice, List.drop_zero, List.take_length] at hbytes
  rw [List.drop_zero] at hscan
  refine hbytes.bind (hscan.bind ?_)
  rw [walkLegacyDevOrder]
  cases walkDevOrder journal bytes (startScan journal) with
  | none => exact Yields.pure
  | some scan =>
      rw [Option.filter_some]
      by_cases hcovers : devOrderCovers journal scan = true
      · rw [if_pos hcovers]
        exact Yields.unless (fun _ => Yields.pure) fun hnot => absurd hnot (by simp [hcovers])
      · rw [if_neg hcovers]
        exact Yields.unless (fun hnot => absurd hnot (by simp [hcovers])) fun _ => rfl

end

/-! ### The scan of the capture -/

/-- A call that succeeds: its message is logged, its allocation is granted, and the variable reads so. -/
structure Succeeds (read : Except EfiStatus (UInt32 × List UInt8)) (answer : FirmwareAnswer) : Prop where
  logged : answer.status.isError = false
  granted : answer.granted = true
  variableRead : answer.variableRead = read

section

variable {read : Except EfiStatus (UInt32 × List UInt8)} {s : BootState} {α β : Type}

/-- When every call succeeds, the step ends the scan or leaves this value. -/
def DevOrderStep.Gives (read : Except EfiStatus (UInt32 × List UInt8)) (step : DevOrderStep α)
    (value : Option α) (s : BootState) : Prop :=
  Query.Wp (Succeeds read) (ExceptT.run step) (fun result => result.toOption = value) s

namespace DevOrderStep

theorem gives_pure {value : α} : Gives read (pure value) (some value) s := rfl

theorem gives_bind {step : DevOrderStep α} {next : α → DevOrderStep β} {value : Option α}
    {rest : α → Option β} (hstep : Gives read step value s)
    (hnext : ∀ given, value = some given → Gives read (next given) (rest given) s) :
    Gives read (step >>= next) (value.bind rest) s := by
  rw [Gives, ExceptT.run_bind, Query.wp_bind]
  refine hstep.mono fun result hresult => ?_
  cases result with
  | ok given =>
      obtain rfl := hresult
      exact hnext given rfl
  | error status =>
      obtain rfl := hresult
      exact rfl

theorem gives_log : Gives read devOrderLog (some ()) s := by
  intro answer hanswer
  change Ask.All (Succeeds read)
    (ExceptT.run (if answer.status.isError = true then throw answer.status else pure () : DevOrderStep Unit) s) _
  rw [if_neg (Bool.eq_false_iff.mp hanswer.logged)]
  exact rfl

theorem gives_malformed : Gives read (devOrderMalformed : DevOrderStep α) none s := fun _ _ => rfl

end DevOrderStep

open DevOrderStep

variable {journal : List BbsTable} {bbsType : UInt8} {scan : DevOrderScan} {bytes : List UInt8}
  {words : List UInt16}

theorem scanDevOrderData_gives :
    Gives read (scanDevOrderData journal bbsType words scan)
      (walkDevOrderData journal bbsType words scan) s := by
  induction words generalizing scan with
  | nil => exact gives_pure
  | cons word words ih =>
      unfold scanDevOrderData walkDevOrderData nameRow
      dsimp only
      split
      · exact gives_malformed
      split
      · exact gives_malformed
      split
      · exact gives_malformed
      · exact gives_bind gives_log fun _ _ => ih

theorem scanDevOrder_gives :
    Gives read (scanDevOrder journal bytes scan) (walkDevOrder journal bytes scan) s := by
  induction hlength : bytes.length using Nat.strong_induction_on generalizing bytes scan with
  | _ length ih =>
  cases bytes with
  | nil =>
      rw [scanDevOrder, walkDevOrder]
      exact gives_pure
  | cons bbsType rest =>
      have hmalformed : EntryMalformed rest ↔ rest.length < 2 ∨ entryLength rest < 2 ∨
          entryLength rest % 2 ≠ 0 ∨ entryLength rest > rest.length := Iff.rfl
      rw [scanDevOrder, walkDevOrder, ← entryLength]
      by_cases hshort : rest.length < 2
      · rw [if_pos hshort, if_pos (.inl (.inl hshort))]
        exact gives_malformed
      rw [if_neg hshort]
      by_cases hbad : entryLength rest < 2 ∨ entryLength rest % 2 ≠ 0 ∨ entryLength rest > rest.length
      · rw [if_pos hbad, if_pos (.inl (.inr hbad))]
        exact gives_malformed
      rw [if_neg hbad]
      by_cases hseen : bbsType ∈ scan.seenType
      · rw [if_pos hseen, if_pos (.inr hseen)]
        exact gives_malformed
      have hsound : ¬ (EntryMalformed rest ∨ bbsType ∈ scan.seenType) :=
        not_or.mpr ⟨not_or.mpr ⟨hshort, hbad⟩, hseen⟩
      rw [if_neg hseen, if_neg hsound]
      refine gives_bind gives_log fun _ _ => gives_bind scanDevOrderData_gives fun next _ => ?_
      rw [List.length_cons] at hlength
      exact ih (rest.drop (entryLength rest)).length (by rw [List.length_drop]; omega) rfl

/-- With every message logged, the capture takes over the scan of the variable's bytes. -/
theorem parseLegacyDevOrder_gives {liveBbsIndex : Nat} :
    (parseLegacyDevOrder journal liveBbsIndex bytes).Wp (Succeeds read)
      (fun result => result.toOption = walkLegacyDevOrder journal bytes) s := by
  unfold parseLegacyDevOrder walkLegacyDevOrder
  have hscan := @scanDevOrder_gives read s journal (startScan journal) bytes
  suffices hrest : ∀ scan, Gives read
      (if (!devOrderCovers journal scan) = true then devOrderMalformed
        else do
          if scan.disabled[liveBbsIndex]! then devOrderLog
          return scan : DevOrderStep DevOrderScan)
      (Option.guard (devOrderCovers journal) scan) s by
    rw [← Option.bind_guard]
    exact gives_bind gives_log fun _ _ => gives_bind hscan fun scan _ => hrest scan
  intro scan
  by_cases hcovers : devOrderCovers journal scan = true
  · rw [if_neg (by simp [hcovers]), Option.guard_eq_some_iff.mpr ⟨rfl, hcovers⟩]
    split
    · exact gives_bind gives_log fun _ _ => gives_pure
    · exact gives_pure
  · rw [if_pos (by simp [hcovers]), Option.guard_eq_none_iff.mpr (Bool.eq_false_iff.mpr hcovers)]
    exact gives_malformed

end

end CsmVgaSelector
