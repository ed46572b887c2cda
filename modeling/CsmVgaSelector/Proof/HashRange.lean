import CsmVgaSelector.Lib.Sha256
import CsmVgaSelector.Selector.HashRange

/-!
# The hash of a range is SHA-256

The words, the rounds, the blocks and the tail are those of the standard (`hashRange_sha256`).
-/

namespace CsmVgaSelector

open Sha256 (HashValue bytesBits bitsOf)

variable {state : Sha256State} {block data rest : Bytes} {words : List UInt32}

def Sha256State.value (state : Sha256State) : HashValue where
  a := state.a.toBitVec
  b := state.b.toBitVec
  c := state.c.toBitVec
  d := state.d.toBitVec
  e := state.e.toBitVec
  f := state.f.toBitVec
  g := state.g.toBitVec
  h := state.h.toBitVec

/-! ### One block -/

theorem constant_eq : ∀ t < 64, (sha256Constants.getD t 0).toBitVec = Sha256.constant t := by
  decide +kernel

theorem start_eq : sha256Start.value = .initial := by
  decide +kernel

/-- A rotation by a constant. -/
theorem rotateRight32_eq (value : UInt32) {count : UInt32} (hpos : 0 < count.toNat) (hlt : count.toNat < 32) :
    (rotateRight32 value count).toBitVec = value.toBitVec.rotateRight count.toNat := by
  have hcount : count.toBitVec % 32 = count.toBitVec := by
    apply BitVec.eq_of_toNat_eq
    rw [BitVec.toNat_umod]
    exact Nat.mod_eq_of_lt hlt
  have hback : ((32 - count).toBitVec % 32).toNat = 32 - count.toNat := by
    rw [BitVec.toNat_umod, UInt32.toBitVec_sub, BitVec.toNat_sub]
    change (2 ^ 32 - count.toNat + 32) % 2 ^ 32 % 32 = 32 - count.toNat
    omega
  rw [rotateRight32, UInt32.toBitVec_or, UInt32.toBitVec_shiftRight, UInt32.toBitVec_shiftLeft,
    BitVec.rotateRight_def, Nat.mod_eq_of_lt hlt]
  congr 1
  · rw [hcount]
    rfl
  · rw [BitVec.shiftLeft_eq', hback]

theorem lowerSigma0_eq (value : UInt32) :
    (rotateRight32 value 7 ^^^ rotateRight32 value 18 ^^^ value >>> 3).toBitVec =
      Sha256.lowerSigma0 value.toBitVec := by
  rw [UInt32.toBitVec_xor, UInt32.toBitVec_xor, rotateRight32_eq value (by decide) (by decide),
    rotateRight32_eq value (by decide) (by decide)]
  rfl

theorem lowerSigma1_eq (value : UInt32) :
    (rotateRight32 value 17 ^^^ rotateRight32 value 19 ^^^ value >>> 10).toBitVec =
      Sha256.lowerSigma1 value.toBitVec := by
  rw [UInt32.toBitVec_xor, UInt32.toBitVec_xor, rotateRight32_eq value (by decide) (by decide),
    rotateRight32_eq value (by decide) (by decide)]
  rfl

theorem upperSigma0_eq (value : UInt32) :
    (rotateRight32 value 2 ^^^ rotateRight32 value 13 ^^^ rotateRight32 value 22).toBitVec =
      Sha256.upperSigma0 value.toBitVec := by
  rw [UInt32.toBitVec_xor, UInt32.toBitVec_xor, rotateRight32_eq value (by decide) (by decide),
    rotateRight32_eq value (by decide) (by decide), rotateRight32_eq value (by decide) (by decide)]
  rfl

theorem upperSigma1_eq (value : UInt32) :
    (rotateRight32 value 6 ^^^ rotateRight32 value 11 ^^^ rotateRight32 value 25).toBitVec =
      Sha256.upperSigma1 value.toBitVec := by
  rw [UInt32.toBitVec_xor, UInt32.toBitVec_xor, rotateRight32_eq value (by decide) (by decide),
    rotateRight32_eq value (by decide) (by decide), rotateRight32_eq value (by decide) (by decide)]
  rfl

/-- The words that have been computed are those of the schedule. -/
def Schedules (blockWords : Nat → Sha256.Word) (words : List UInt32) : Prop :=
  16 ≤ words.length ∧ ∀ t < words.length, (words.getD t 0).toBitVec = Sha256.schedule blockWords t

variable {blockWords : Nat → Sha256.Word}

theorem nextWord_eq (h : Schedules blockWords words) :
    (nextWord words words.length).toBitVec = Sha256.schedule blockWords words.length := by
  obtain ⟨hlength, hwords⟩ := h
  rw [Sha256.schedule_of_le hlength, ← hwords _ (by omega), ← hwords _ (by omega), ← hwords _ (by omega),
    ← hwords _ (by omega), nextWord, UInt32.toBitVec_add, UInt32.toBitVec_add, UInt32.toBitVec_add, lowerSigma0_eq,
    lowerSigma1_eq]

theorem Schedules.step (h : Schedules blockWords words) :
    Schedules blockWords (words ++ [nextWord words words.length]) := by
  refine ⟨by rw [List.length_append]; exact Nat.le_add_right_of_le h.1, fun t ht => ?_⟩
  rw [List.length_append, List.length_singleton] at ht
  by_cases hlast : t = words.length
  · rw [hlast, List.getD_append_right _ _ _ _ le_rfl, Nat.sub_self]
    exact nextWord_eq h
  · rw [List.getD_append _ _ _ _ (by omega)]
    exact h.2 t (by omega)

/-- The loop that computes words. -/
theorem Schedules.run (count : Nat) (h : Schedules blockWords words) :
    Schedules blockWords ((List.range' words.length count).foldl
        (fun words index => words ++ [nextWord words index]) words) ∧
      ((List.range' words.length count).foldl
        (fun words index => words ++ [nextWord words index]) words).length = words.length + count := by
  induction count generalizing words with
  | zero => exact ⟨h, rfl⟩
  | succ count ih =>
      rw [List.range'_succ, List.foldl_cons]
      have hlength : (words ++ [nextWord words words.length]).length = words.length + 1 := by simp
      have hrest := ih h.step
      rw [hlength] at hrest
      exact ⟨hrest.1, hrest.2.trans (by omega)⟩

theorem messageWords_eq (block : Bytes) : ∀ t < 64, ((messageWords block).getD t 0).toBitVec =
    Sha256.schedule (fun t => (blockWord block t).toBitVec) t := by
  have hstart : Schedules (fun t => (blockWord block t).toBitVec) ((List.range 16).map (blockWord block)) := by
    refine ⟨by simp, fun t ht => ?_⟩
    have ht : t < 16 := by simpa using ht
    rw [Sha256.schedule_of_lt ht, List.getD_eq_getElem _ _ (by simpa using ht), List.getElem_map,
      List.getElem_range]
  have hrun := hstart.run 48
  rw [show ((List.range 16).map (blockWord block)).length = 16 by simp] at hrun
  intro t ht
  exact hrun.1.2 t (ht.trans_eq hrun.2.symm)

theorem sha256Round_eq {index : Nat} (hindex : index < 64)
    (hword : (words.getD index 0).toBitVec = Sha256.schedule blockWords index) :
    (sha256Round words state index).value =
      state.value.round (Sha256.schedule blockWords index) (Sha256.constant index) := by
  rw [← hword, ← constant_eq index hindex]
  simp only [sha256Round, Sha256State.value, HashValue.round, Sha256.ch, Sha256.maj, UInt32.toBitVec_add,
    ← upperSigma0_eq, ← upperSigma1_eq, UInt32.toBitVec_xor, UInt32.toBitVec_and, UInt32.toBitVec_not]

theorem rounds_eq (indices : List Nat) (hindices : ∀ index ∈ indices, index < 64)
    (hwords : ∀ t < 64, (words.getD t 0).toBitVec = Sha256.schedule blockWords t) :
    (indices.foldl (sha256Round words) state).value =
      indices.foldl (fun working t => working.round (Sha256.schedule blockWords t) (Sha256.constant t))
        state.value := by
  induction indices generalizing state with
  | nil => rfl
  | cons index indices ih =>
      rw [List.forall_mem_cons] at hindices
      rw [List.foldl_cons, List.foldl_cons, ih hindices.2, sha256Round_eq hindices.1 (hwords index hindices.1)]

theorem sha256Block_eq (state : Sha256State) (block : Bytes) : (sha256Block state block).value =
    Sha256.compress state.value fun t => (blockWord block t).toBitVec := by
  rw [Sha256.compress, ← rounds_eq (List.range 64) (fun _ h => List.mem_range.mp h) (messageWords_eq block)]
  simp only [sha256Block, Sha256State.value, HashValue.add, UInt32.toBitVec_add]

/-! ### Words and bytes -/

/-- A word, from four bytes. -/
theorem bitsOf_fourBytes (b₀ b₁ b₂ b₃ : UInt8) :
    bitsOf (b₀.toUInt32 <<< 24 ||| b₁.toUInt32 <<< 16 ||| b₂.toUInt32 <<< 8 ||| b₃.toUInt32).toBitVec =
      bytesBits [b₀, b₁, b₂, b₃] := by
  simp [bitsOf, bytesBits, List.ofFn_succ, BitVec.getMsbD]

theorem bytesBits_digestWord (word : UInt32) : bytesBits (digestWord word) = bitsOf word.toBitVec := by
  rw [Sha256.bitsOf_word]
  rfl

theorem take_four {index : Nat} (h : index + 4 ≤ data.length) : (data.drop index).take 4 =
    [data.getD index 0, data.getD (index + 1) 0, data.getD (index + 2) 0, data.getD (index + 3) 0] := by
  rw [List.getD_eq_getElem _ _ (by omega), List.getD_eq_getElem _ _ (by omega),
    List.getD_eq_getElem _ _ (by omega), List.getD_eq_getElem _ _ (by omega),
    List.drop_eq_getElem_cons (by omega), List.take_succ_cons, List.drop_eq_getElem_cons (by omega),
    List.take_succ_cons, List.drop_eq_getElem_cons (by omega), List.take_succ_cons,
    List.drop_eq_getElem_cons (by omega), List.take_succ_cons, List.take_zero]

/-- A word of the block, as the standard reads it. -/
theorem blockWord_eq (hlength : 64 ≤ data.length) {index : Nat} (hindex : index < 16) :
    (blockWord (data.take 64) index).toBitVec = Sha256.wordAt (bytesBits data) index := by
  have hblock : 4 * index + 4 ≤ (data.take 64).length := by
    rw [List.length_take]
    omega
  have hsame : ((data.take 64).drop (4 * index)).take 4 = (data.drop (4 * index)).take 4 := by
    rw [List.drop_take, List.take_take, Nat.min_eq_left (by omega)]
  rw [Sha256.wordAt_bytesBits, ← hsame, take_four hblock, ← bitsOf_fourBytes, Sha256.wordOf_bitsOf, blockWord,
    Nat.mul_comm index 4]

/-! ### All blocks -/

theorem hashBlocks_of_le (h : 64 ≤ data.length) :
    hashBlocks state data = hashBlocks (sha256Block state (data.take 64)) (data.drop 64) := by
  rw [hashBlocks, if_pos h]

theorem hashBlocks_of_lt (h : data.length < 64) : hashBlocks state data = (state, data) := by
  rw [hashBlocks, if_neg (Nat.not_le.mpr h)]

theorem hashBlocks_value (state : Sha256State) (data : Bytes) :
    (hashBlocks state data).1.value = Sha256.compressAll state.value (bytesBits data) := by
  fun_induction hashBlocks state data with
  | case1 state data h ih =>
      have hblock : (sha256Block state (data.take 64)).value =
          Sha256.compress state.value fun t => Sha256.wordAt (bytesBits data) t :=
        (sha256Block_eq ..).trans (Sha256.compress_congr state.value fun t ht => blockWord_eq h ht)
      exact ih.trans ((congrArg (Sha256.compressAll · _) hblock).trans (Sha256.compressAll_cons state.value h).symm)
  | case2 state data h => exact (Sha256.compressAll_nil state.value (Nat.not_le.mp h)).symm

/-- What follows is hashed with what remains. -/
theorem hashBlocks_append (state : Sha256State) (data rest : Bytes) : hashBlocks state (data ++ rest) =
    hashBlocks (hashBlocks state data).1 ((hashBlocks state data).2 ++ rest) := by
  fun_induction hashBlocks state data with
  | case1 state data h ih =>
      have hlength : 64 ≤ (data ++ rest).length := by
        rw [List.length_append]
        exact Nat.le_add_right_of_le h
      rw [hashBlocks_of_le hlength, List.take_append_of_le_length h, List.drop_append_of_le_length h, ih]
  | case2 => rfl

theorem remaining_length (state : Sha256State) (data : Bytes) :
    (hashBlocks state data).2.length = data.length % 64 := by
  fun_induction hashBlocks state data with
  | case1 state data h ih =>
      rw [ih, List.length_drop]
      omega
  | case2 state data h => exact (Nat.mod_eq_of_lt (Nat.not_le.mp h)).symm

/-! ### The tail -/

/-- The eight bytes of the length are written over zeros. -/
theorem foldl_set_length {front back : Bytes} {bitCount : UInt64} {place : Nat} (hplace : front.length + 8 = place) :
    [(8, 56), (7, 48), (6, 40), (5, 32), (4, 24), (3, 16), (2, 8), (1, 0)].foldl
        (fun tail (entry : Nat × UInt64) => tail.set (place - entry.1) (bitCount >>> entry.2).toUInt8)
        (front ++ (List.replicate 8 0 ++ back)) =
      front ++ (Sha256.lengthBytes bitCount.toBitVec ++ back) := by
  have hset (tail : Bytes) (index : Nat) (value : UInt8) :
      (front ++ tail).set (front.length + index) value = front ++ tail.set index value := by
    rw [List.set_append_right _ _ (Nat.le_add_right ..), Nat.add_sub_cancel_left]
  subst hplace
  have hindex (distance : Nat) (h : distance ≤ 8) : front.length + 8 - distance = front.length + (8 - distance) :=
    Nat.add_sub_assoc h _
  simp only [List.foldl_cons, List.foldl_nil]
  rw [hindex 8 le_rfl, hset, hindex 7 (by decide), hset, hindex 6 (by decide), hset, hindex 5 (by decide), hset,
    hindex 4 (by decide), hset, hindex 3 (by decide), hset, hindex 2 (by decide), hset, hindex 1 (by decide), hset]
  rfl

/-- The tail, up to the end of its blocks, is what the standard adds. -/
theorem hashTail_eq {remaining : Bytes} {bitCount : UInt64} (hremaining : remaining.length < 64) :
    hashTail remaining bitCount = remaining ++ 0x80 ::
      (List.replicate (tailBytes remaining.length - remaining.length - 9) 0 ++
        (Sha256.lengthBytes bitCount.toBitVec ++ List.replicate (128 - tailBytes remaining.length) 0)) := by
  have htail : remaining.length + 9 ≤ tailBytes remaining.length ∧ tailBytes remaining.length ≤ 128 := by
    unfold tailBytes
    split
    · omega
    · omega
  have hstart : (remaining ++ List.replicate (128 - remaining.length) (0 : UInt8)).set remaining.length 0x80 =
      (remaining ++ 0x80 :: List.replicate (tailBytes remaining.length - remaining.length - 9) 0) ++
        (List.replicate 8 0 ++ List.replicate (128 - tailBytes remaining.length) 0) := by
    have hzeros : 128 - remaining.length = (tailBytes remaining.length - remaining.length - 9 + 8 +
        (128 - tailBytes remaining.length)) + 1 := by omega
    rw [hzeros, List.replicate_succ, List.set_append_right _ _ le_rfl, Nat.sub_self, List.set_cons_zero,
      List.replicate_add, List.replicate_add]
    simp only [List.append_assoc, List.cons_append]
  have hlength : (remaining ++ 0x80 ::
      List.replicate (tailBytes remaining.length - remaining.length - 9) (0 : UInt8)).length + 8 =
        tailBytes remaining.length := by
    rw [List.length_append, List.length_cons, List.length_replicate]
    omega
  have hlengths := @foldl_set_length _ (List.replicate (128 - tailBytes remaining.length) 0) bitCount _ hlength
  rw [← hstart] at hlengths
  refine hlengths.trans ?_
  simp only [List.append_assoc, List.cons_append]

/-! ### The range -/

/-- The tail as the standard pads what remains. -/
def paddedTail (remaining : Bytes) (bitCount : UInt64) : Bytes :=
  remaining ++ 0x80 :: (List.replicate (tailBytes remaining.length - remaining.length - 9) 0 ++
    Sha256.lengthBytes bitCount.toBitVec)

theorem tail_state {remaining : Bytes} {bitCount : UInt64} (hremaining : remaining.length < 64)
    (state : Sha256State) :
    (if tailBytes remaining.length = 128 then
        sha256Block (sha256Block state ((hashTail remaining bitCount).take 64))
          ((hashTail remaining bitCount).drop 64)
      else sha256Block state ((hashTail remaining bitCount).take 64)) =
      (hashBlocks state (paddedTail remaining bitCount)).1 := by
  have hlength : (paddedTail remaining bitCount).length = tailBytes remaining.length := by
    have hbytes : (Sha256.lengthBytes bitCount.toBitVec).length = 8 := rfl
    rw [paddedTail, List.length_append, List.length_cons, List.length_append, List.length_replicate, hbytes]
    unfold tailBytes
    split
    · omega
    · omega
  have htail : hashTail remaining bitCount =
      paddedTail remaining bitCount ++ List.replicate (128 - tailBytes remaining.length) 0 := by
    rw [hashTail_eq hremaining, paddedTail]
    simp only [List.append_assoc, List.cons_append]
  by_cases htwo : tailBytes remaining.length = 128
  · have hpadded : hashTail remaining bitCount = paddedTail remaining bitCount := by
      rw [htail, htwo, Nat.sub_self, List.replicate_zero, List.append_nil]
    have hsecond : ((paddedTail remaining bitCount).drop 64).length = 64 := by
      rw [List.length_drop, hlength, htwo]
    rw [if_pos htwo, hpadded, hashBlocks_of_le (by rw [hlength, htwo]; decide), hashBlocks_of_le hsecond.ge,
      List.take_of_length_le hsecond.le, hashBlocks_of_lt]
    rw [List.length_drop, hsecond]
    decide
  · have hone : tailBytes remaining.length = 64 := by
      unfold tailBytes at htwo ⊢
      split at htwo
      · rename_i hsmall
        rw [if_pos hsmall]
      · exact absurd rfl htwo
    have hfirst : (hashTail remaining bitCount).take 64 = (paddedTail remaining bitCount).take 64 := by
      rw [htail, List.take_append_of_le_length (by rw [hlength, hone])]
    rw [if_neg htwo, hfirst, hashBlocks_of_le (by rw [hlength, hone]), hashBlocks_of_lt]
    rw [List.length_drop, hlength, hone]
    decide

theorem bytesBits_digest (state : Sha256State) :
    bytesBits ([state.a, state.b, state.c, state.d, state.e, state.f, state.g, state.h].flatMap digestWord) =
      state.value.words.flatMap bitsOf := by
  simp only [List.flatMap_cons, List.flatMap_nil, Sha256.bytesBits_append, bytesBits_digestWord]
  rfl

/-- **HashRange computes SHA-256.** The digest is the one of the standard, which is defined for a message of
fewer than 2^61 bytes; the length of a longer one would wrap in both. -/
theorem hashRange_sha256 (data : Bytes) : bytesBits (hashRange data) = Sha256.digest (bytesBits data) := by
  have hremaining := remaining_length sha256Start data
  have hsmall : data.length % 64 < 64 := Nat.mod_lt _ (by decide)
  have hcount : (data.length.toUInt64 * 8).toBitVec = BitVec.ofNat 64 (8 * data.length) := by
    apply BitVec.eq_of_toNat_eq
    change (data.length.toUInt64.toNat * 8) % 2 ^ 64 = 8 * data.length % 2 ^ 64
    rw [Nat.toUInt64_eq, UInt64.toNat_ofNat']
    omega
  have hzeros : (8 * data.length + 8 + 8 * (tailBytes (data.length % 64) - data.length % 64 - 9)) % 512 = 448 ∧
      tailBytes (data.length % 64) - data.length % 64 - 9 < 64 := by
    unfold tailBytes
    split
    · omega
    · omega
  rw [Sha256.digest, Sha256.pad_bytesBits hzeros.1 hzeros.2, ← start_eq, ← hashBlocks_value, hashBlocks_append,
    ← bytesBits_digest]
  have htail := @tail_state (hashBlocks sha256Start data).2 (data.length.toUInt64 * 8) (hremaining ▸ hsmall)
    (hashBlocks sha256Start data).1
  rw [paddedTail, hcount, hremaining] at htail
  rw [← htail, ← hremaining]
  rfl

end CsmVgaSelector
