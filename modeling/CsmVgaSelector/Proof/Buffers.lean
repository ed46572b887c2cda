import CsmVgaSelector.Buffers
import CsmVgaSelector.Proof.MemoryMap

/-!
# Who holds the buffers

Whatever the firmware answers, the program ends an attempt with one buffer more, of the size that it told the
firmware, when it succeeds, and otherwise with what it held before; it gives nothing back twice.
-/

namespace CsmVgaSelector.Buffers

open Prog

variable {holdings : Holdings} {attempts requiredSize maximumSize bufferSize : Nat} {before : CapturedMap}
  {descriptorSize mapSize : Nat} {written : List UInt8}

@[simp] theorem length_filled : (filled requiredSize written).length = requiredSize := by
  rw [filled, List.length_append, List.length_take, List.length_replicate]
  omega

/-! ### The memory map -/

/-- A captured map stands in a buffer that the program holds, and is whole. -/
structure MapHeld (holdings : Holdings) (snapshot : CapturedMap) (holdings' : Holdings) : Prop where
  held : holdings' = holdings.take snapshot.map snapshot.buffer.length
  map : snapshot.map ≠ 0
  inside : snapshot.mapSize ≤ snapshot.buffer.length
  mapSize : snapshot.toMemoryMapSnapshot.mapSize = snapshot.mapSize
  nonempty : snapshot.mapSize ≠ 0
  wellFormed : snapshot.toMemoryMapSnapshot.WellFormed

/-- The capture succeeds with a map, or fails and holds nothing. -/
structure MapOwned (holdings : Holdings) (captured : EfiStatus × CapturedMap) (holdings' : Holdings) : Prop where
  success : captured.1 = .success → MapHeld holdings captured.2 holdings'
  failure : captured.1 ≠ .success → captured.1.isError = true ∧ captured.2.map = 0 ∧ holdings' = holdings

theorem mapOwned_failed {status : EfiStatus} {snapshot : CapturedMap} (hstatus : status.isError = true)
    (hmap : snapshot.map = 0) : MapOwned holdings (status, snapshot) holdings where
  success := fun h => absurd h (EfiStatus.ne_success_of_isError hstatus)
  failure := fun _ => ⟨hstatus, hmap, rfl⟩

theorem wp_memoryMapRelease {A : MapAnswer → Prop} {snapshot : CapturedMap} {Q : CapturedMap → Holdings → Prop}
    (hmap : snapshot.map ≠ 0) (h : Q .zero (holdings.giveBack snapshot.map)) :
    Wp A (memoryMapRelease snapshot) Q holdings := by
  unfold memoryMapRelease
  rw [if_pos hmap]
  exact wp_bind.mpr (wp_modify.mpr (Wp.pure h))

theorem wp_captureAttempts :
    Wp (fun _ => True) (captureAttempts attempts requiredSize before) (MapOwned holdings) holdings := by
  induction attempts generalizing requiredSize before with
  | zero => exact Wp.pure (mapOwned_failed rfl rfl)
  | succ attempts ih =>
      refine wp_bind.mpr (Wp.allocate ?_ fun map hmap => ?_)
      · rw [if_pos rfl]
        exact Wp.pure (mapOwned_failed rfl rfl)
      rw [if_neg hmap]
      refine wp_bind.mpr (wp_modify.mpr ?_)
      rw [Holdings.lend_take]
      refine wp_bind.mpr (wp_call.mpr fun answer _ => ?_)
      dsimp only
      by_cases hsuccess : answer.status = .success
      case pos =>
        rw [if_pos hsuccess]
        split
        case isTrue =>
          refine wp_bind.mpr (wp_memoryMapRelease hmap (Wp.pure ?_))
          rw [Holdings.giveBack_take]
          exact mapOwned_failed rfl rfl
        case isFalse hvalid =>
          refine Wp.pure ⟨fun _ => ?_, fun h => absurd rfl h⟩
          rw [not_or, not_or, not_or, not_not] at hvalid
          obtain ⟨hnonempty, hinside, hsize, hwhole⟩ := hvalid
          have hmapSize : ((filled requiredSize answer.written).take answer.mapSize).length = answer.mapSize := by
            rw [List.length_take, length_filled]
            omega
          refine ⟨?_, hmap, ?_, hmapSize, hnonempty, Nat.not_lt.mp hsize, ?_⟩
          · rw [length_filled]
          · rw [length_filled]
            exact Nat.not_lt.mp hinside
          · rw [← hmapSize] at hwhole
            exact hwhole
      case neg =>
        rw [if_neg hsuccess]
        refine wp_bind.mpr (wp_modify.mpr ?_)
        rw [Holdings.giveBack_take]
        refine Wp.ite (fun _ => Wp.pure (mapOwned_failed rfl rfl)) fun herror => ?_
        rw [Bool.not_eq_true', Bool.not_eq_false] at herror
        refine Wp.ite (fun _ => Wp.pure (mapOwned_failed herror rfl)) fun _ => ?_
        exact Wp.ite (fun _ => Wp.pure (mapOwned_failed rfl rfl)) fun _ => ih

/-- **Who holds the memory map.** -/
theorem memoryMapCapture_owned : Wp (fun _ => True) memoryMapCapture (MapOwned holdings) holdings := by
  refine wp_bind.mpr (wp_call.mpr fun answer _ => ?_)
  refine Wp.ite (fun _ => Wp.pure (mapOwned_failed ?_ rfl)) fun _ => ?_
  · split
    case isTrue herror => exact herror
    case isFalse => rfl
  · exact Wp.ite (fun _ => Wp.pure (mapOwned_failed rfl rfl)) fun _ => wp_captureAttempts

/-- A caller holds what it held before, and its check saw a map that is whole. -/
theorem wp_withMemoryMap {check : MemoryMapSnapshot → EfiStatus} :
    Wp (fun _ => True) (withMemoryMap check) (fun status holdings' => holdings' = holdings ∧
      (status.isError = false → ∃ snapshot : MemoryMapSnapshot, snapshot.WellFormed ∧ snapshot.mapSize ≠ 0 ∧
        status = check snapshot)) holdings := by
  refine memoryMapCapture_owned.bind fun captured holdings' howned => ?_
  obtain ⟨status, snapshot⟩ := captured
  by_cases hsuccess : status = .success
  case pos =>
    have hheld := howned.success hsuccess
    dsimp only at hheld ⊢
    rw [if_neg (by rw [hsuccess]; exact Bool.false_ne_true), hheld.held]
    refine wp_bind.mpr (wp_memoryMapRelease hheld.map (Wp.pure ⟨Holdings.giveBack_take, fun _ => ?_⟩))
    exact ⟨_, hheld.wellFormed, hheld.mapSize.trans_ne hheld.nonempty, rfl⟩
  case neg =>
    obtain ⟨herror, -, rfl⟩ := howned.failure hsuccess
    dsimp only at herror ⊢
    rw [if_pos herror]
    exact Wp.pure ⟨rfl, fun h => by rw [herror] at h; cases h⟩

/-- One caller after another. -/
def useMemoryMap : List (MemoryMapSnapshot → EfiStatus) → Prog MapAnswer Holdings (List EfiStatus)
  | [] => return []
  | check :: checks => do
      let status ← withMemoryMap check
      let statuses ← useMemoryMap checks
      return status :: statuses

/-- **No map is kept.** However often the map is captured and checked, and whatever the firmware answers, every
buffer is given back, once, and no check sees a map that is not whole. -/
theorem useMemoryMap_balanced {checks : List (MemoryMapSnapshot → EfiStatus)} :
    Wp (fun _ => True) (useMemoryMap checks) (fun statuses holdings' => holdings' = holdings ∧
      List.Forall₂ (fun check status => status.isError = false → ∃ snapshot : MemoryMapSnapshot,
        snapshot.WellFormed ∧ snapshot.mapSize ≠ 0 ∧ status = check snapshot) checks statuses) holdings := by
  induction checks with
  | nil => exact Wp.pure ⟨rfl, .nil⟩
  | cons check checks ih =>
      refine wp_withMemoryMap.bind fun status holdings' h => ?_
      obtain ⟨rfl, hstatus⟩ := h
      refine ih.bind fun statuses holdings' h => ?_
      obtain ⟨rfl, hstatuses⟩ := h
      exact Wp.pure ⟨rfl, .cons hstatus hstatuses⟩

/-! ### Variables -/

/-- A variable that was read stands in a buffer that the program holds, of a size that is allowed. -/
structure VariableHeld (maximumSize : Nat) (holdings : Holdings) (read : VariableBuffer) (holdings' : Holdings) :
    Prop where
  held : holdings' = holdings.take read.buffer read.content.length
  buffer : read.buffer ≠ 0
  nonempty : read.bufferSize ≠ 0
  inside : read.bufferSize ≤ read.content.length
  allowed : read.content.length ≤ maximumSize

structure VariableOwned (maximumSize : Nat) (holdings : Holdings) (read : EfiStatus × VariableBuffer)
    (holdings' : Holdings) : Prop where
  success : read.1 = .success → VariableHeld maximumSize holdings read.2 holdings'
  failure : read.1 ≠ .success → read.2.buffer = 0 ∧ holdings' = holdings

theorem variableOwned_failed {status : EfiStatus} {read : VariableBuffer} (hstatus : status ≠ .success)
    (hbuffer : read.buffer = 0) : VariableOwned maximumSize holdings (status, read) holdings where
  success := fun h => absurd h hstatus
  failure := fun _ => ⟨hbuffer, rfl⟩

theorem wp_readAttempts :
    Wp (fun _ => True) (readAttempts maximumSize attempts requiredSize bufferSize)
      (VariableOwned maximumSize holdings) holdings := by
  induction attempts generalizing requiredSize bufferSize with
  | zero => exact Wp.pure (variableOwned_failed nofun rfl)
  | succ attempts ih =>
      refine Wp.ite (fun _ => Wp.pure (variableOwned_failed nofun rfl)) fun hallowed => ?_
      rw [not_or, not_lt] at hallowed
      refine wp_bind.mpr (Wp.allocate ?_ fun buffer hbuffer => ?_)
      · rw [if_pos rfl]
        exact Wp.pure (variableOwned_failed nofun rfl)
      rw [if_neg hbuffer]
      refine wp_bind.mpr (wp_modify.mpr ?_)
      rw [Holdings.lend_take]
      refine wp_bind.mpr (wp_call.mpr fun answer _ => ?_)
      refine Wp.ite (fun _ => Wp.ite (fun _ => ?_) fun hread => ?_) fun hfailed => ?_
      · refine wp_bind.mpr (wp_modify.mpr (Wp.pure ?_))
        rw [Holdings.giveBack_take]
        exact variableOwned_failed nofun rfl
      · rw [not_or, not_lt] at hread
        refine Wp.pure ⟨fun _ => ?_, fun h => absurd rfl h⟩
        exact ⟨by rw [length_filled], hbuffer, hread.1, by rw [length_filled]; exact hread.2,
          by rw [length_filled]; exact hallowed.2⟩
      · refine wp_bind.mpr (wp_modify.mpr ?_)
        rw [Holdings.giveBack_take]
        exact Wp.ite (fun _ => Wp.pure (variableOwned_failed hfailed rfl)) fun _ => ih

theorem wp_readVariable :
    Wp (fun _ => True) (readVariable attempts maximumSize) (VariableOwned maximumSize holdings) holdings := by
  refine wp_bind.mpr (wp_call.mpr fun answer _ => ?_)
  refine Wp.ite (fun _ => Wp.pure (variableOwned_failed ?_ rfl)) fun _ => wp_readAttempts
  split
  case isTrue herror => exact EfiStatus.ne_success_of_isError herror
  case isFalse => nofun

/-- **Who holds a variable.** Both readers of variables, with whatever the firmware answers, hold a buffer just when
they succeed. -/
theorem readVariable_owned :
    Wp (fun _ => True) (legacyBootReadVariableBounded maximumSize) (VariableOwned maximumSize holdings) holdings ∧
      Wp (fun _ => True) (readVariableBounded maximumSize) (VariableOwned maximumSize holdings) holdings := by
  constructor
  · exact Wp.ite (fun _ => Wp.pure (variableOwned_failed nofun rfl)) fun _ => wp_readVariable
  · refine wp_readVariable.bind fun read holdings' howned => Wp.pure ?_
    refine ⟨fun hsuccess => ?_, fun hfailed => howned.failure hfailed⟩
    obtain ⟨hheld, hbuffer, hnonempty, hinside, hallowed⟩ := howned.success hsuccess
    exact ⟨hheld, hbuffer, hnonempty, hinside, hallowed⟩

end CsmVgaSelector.Buffers
