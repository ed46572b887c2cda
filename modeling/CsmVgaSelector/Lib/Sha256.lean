import Mathlib.Data.List.GetD
import Mathlib.Data.Nat.NthRoot.Defs
import Mathlib.Data.Nat.Prime.Defs
import Mathlib.Order.Lattice.Nat
import Mathlib.Tactic.Common

/-!
# SHA-256

The function of FIPS 180-4 on messages of bits: the message is padded to blocks of 512 bits, and one block after
the other is compressed into the hash value. A word is written with its most significant bit first.
-/

namespace Sha256

abbrev Word := BitVec 32

/-! ### Functions and constants -/

def ch (x y z : Word) : Word := (x &&& y) ^^^ (~~~x &&& z)

def maj (x y z : Word) : Word := (x &&& y) ^^^ (x &&& z) ^^^ (y &&& z)

def upperSigma0 (x : Word) : Word := x.rotateRight 2 ^^^ x.rotateRight 13 ^^^ x.rotateRight 22

def upperSigma1 (x : Word) : Word := x.rotateRight 6 ^^^ x.rotateRight 11 ^^^ x.rotateRight 25

def lowerSigma0 (x : Word) : Word := x.rotateRight 7 ^^^ x.rotateRight 18 ^^^ x >>> 3

def lowerSigma1 (x : Word) : Word := x.rotateRight 17 ^^^ x.rotateRight 19 ^^^ x >>> 10

/-- The first sixty-four primes. -/
def primes : List Nat := (List.range 312).filter fun number => decide (Nat.Prime number)

/-- The first thirty-two bits of the fractional part of the root. -/
def rootBits (degree number : Nat) : Word := BitVec.ofNat 32 (Nat.nthRoot degree (number * 2 ^ (32 * degree)))

/-- The constants are taken from the cube roots of the primes. -/
def constant (t : Nat) : Word := rootBits 3 (primes.getD t 0)

/-! ### One block -/

/-- A hash value, and the working value. -/
structure HashValue where
  a : Word
  b : Word
  c : Word
  d : Word
  e : Word
  f : Word
  g : Word
  h : Word
  deriving DecidableEq

namespace HashValue

/-- The initial value is taken from the square roots of the first eight primes. -/
def initial : HashValue where
  a := rootBits 2 (primes.getD 0 0)
  b := rootBits 2 (primes.getD 1 0)
  c := rootBits 2 (primes.getD 2 0)
  d := rootBits 2 (primes.getD 3 0)
  e := rootBits 2 (primes.getD 4 0)
  f := rootBits 2 (primes.getD 5 0)
  g := rootBits 2 (primes.getD 6 0)
  h := rootBits 2 (primes.getD 7 0)

def add (value other : HashValue) : HashValue where
  a := value.a + other.a
  b := value.b + other.b
  c := value.c + other.c
  d := value.d + other.d
  e := value.e + other.e
  f := value.f + other.f
  g := value.g + other.g
  h := value.h + other.h

def words (value : HashValue) : List Word :=
  [value.a, value.b, value.c, value.d, value.e, value.f, value.g, value.h]

def round (word constant : Word) (value : HashValue) : HashValue :=
  let t₁ := value.h + upperSigma1 value.e + ch value.e value.f value.g + constant + word
  let t₂ := upperSigma0 value.a + maj value.a value.b value.c
  { a := t₁ + t₂
    b := value.a
    c := value.b
    d := value.c
    e := value.d + t₁
    f := value.e
    g := value.f
    h := value.g }

end HashValue

/-- The message schedule of a block of sixteen words. -/
def schedule (block : Nat → Word) (t : Nat) : Word :=
  if t < 16 then block t
  else
    lowerSigma1 (schedule block (t - 2)) + schedule block (t - 7) + lowerSigma0 (schedule block (t - 15)) +
      schedule block (t - 16)
termination_by t
decreasing_by all_goals omega

def compress (value : HashValue) (block : Nat → Word) : HashValue :=
  value.add ((List.range 64).foldl
    (fun working t => working.round (schedule block t) (constant t)) value)

/-! ### The message -/

def bitsOf {width : Nat} (word : BitVec width) : List Bool := List.ofFn fun index : Fin width => word.getMsbD index

/-- The least number of zeros that leaves room for the length. -/
noncomputable def paddingZeros (length : Nat) : Nat := sInf {zeros | (length + 1 + zeros) % 512 = 448}

noncomputable def pad (message : List Bool) : List Bool :=
  message ++ [true] ++ List.replicate (paddingZeros message.length) false ++ bitsOf (BitVec.ofNat 64 message.length)

/-- The word of these bits. -/
def wordOf (bits : List Bool) : Word := (BitVec.ofBoolListBE bits).setWidth 32

def wordAt (bits : List Bool) (index : Nat) : Word := wordOf ((bits.drop (32 * index)).take 32)

/-- All blocks of a padded message. -/
def compressAll (value : HashValue) (bits : List Bool) : HashValue :=
  (List.range (bits.length / 512)).foldl
    (fun value index => compress value fun t => wordAt bits (16 * index + t)) value

noncomputable def digest (message : List Bool) : List Bool :=
  (compressAll .initial (pad message)).words.flatMap bitsOf

/-! ### Messages of bytes -/

/-- The bits of a string of bytes. -/
def bytesBits (bytes : List UInt8) : List Bool := bytes.flatMap fun byte => bitsOf byte.toBitVec

variable {bytes bytes' : List UInt8} {block block' : Nat → Word} {bits : List Bool}

@[simp] theorem length_bitsOf {width : Nat} {word : BitVec width} : (bitsOf word).length = width :=
  List.length_ofFn

@[simp] theorem length_bytesBits : (bytesBits bytes).length = 8 * bytes.length := by
  induction bytes with
  | nil => rfl
  | cons byte bytes ih =>
      rw [bytesBits, List.flatMap_cons, List.length_append, length_bitsOf, ← bytesBits, ih, List.length_cons]
      omega

theorem bytesBits_append : bytesBits (bytes ++ bytes') = bytesBits bytes ++ bytesBits bytes' :=
  List.flatMap_append

theorem drop_bytesBits (count : Nat) : (bytesBits bytes).drop (8 * count) = bytesBits (bytes.drop count) := by
  by_cases hcount : count ≤ bytes.length
  · have hlength : (bytesBits (bytes.take count)).length = 8 * count := by
      rw [length_bytesBits, List.length_take, Nat.min_eq_left hcount]
    rw [← List.take_append_drop count bytes, bytesBits_append, ← hlength, List.drop_left,
      List.take_append_drop count bytes]
  · have hall : bytes.length ≤ count := by omega
    rw [List.drop_eq_nil_of_le hall, List.drop_eq_nil_of_le]
    · rfl
    · rw [length_bytesBits]
      omega

theorem take_bytesBits (count : Nat) : (bytesBits bytes).take (8 * count) = bytesBits (bytes.take count) := by
  by_cases hcount : count ≤ bytes.length
  · have hlength : (bytesBits (bytes.take count)).length = 8 * count := by
      rw [length_bytesBits, List.length_take, Nat.min_eq_left hcount]
    conv_lhs => rw [← List.take_append_drop count bytes, bytesBits_append, ← hlength, List.take_left]
  · have hall : bytes.length ≤ count := by omega
    rw [List.take_of_length_le hall, List.take_of_length_le]
    rw [length_bytesBits]
    omega

/-- The word of four bytes. -/
theorem wordAt_bytesBits (index : Nat) :
    wordAt (bytesBits bytes) index = wordOf (bytesBits ((bytes.drop (4 * index)).take 4)) := by
  rw [wordAt, show 32 * index = 8 * (4 * index) by omega, drop_bytesBits, show 32 = 8 * 4 from rfl, take_bytesBits]

/-- Words are read back as they are written. -/
theorem wordOf_bitsOf (word : Word) : wordOf (bitsOf word) = word := by
  apply BitVec.eq_of_getLsbD_eq
  intro index hindex
  have hplace : 32 - 1 - index < 32 := by omega
  rw [wordOf, BitVec.getLsbD_setWidth, BitVec.getLsbD_ofBoolListBE, length_bitsOf, decide_eq_true hindex,
    Bool.true_and, Bool.true_and, bitsOf, List.getD_eq_getElem _ _ (by rwa [List.length_ofFn]), List.getElem_ofFn,
    BitVec.getMsbD, decide_eq_true hplace, Bool.true_and]
  change word.getLsbD (32 - 1 - (32 - 1 - index)) = word.getLsbD index
  rw [show 32 - 1 - (32 - 1 - index) = index by omega]

/-! ### Blocks of bytes -/

theorem schedule_of_lt {t : Nat} (h : t < 16) : schedule block t = block t := by
  rw [schedule, if_pos h]

theorem schedule_of_le {t : Nat} (h : 16 ≤ t) : schedule block t =
    lowerSigma1 (schedule block (t - 2)) + schedule block (t - 7) + lowerSigma0 (schedule block (t - 15)) +
      schedule block (t - 16) := by
  rw [schedule, if_neg (Nat.not_lt.mpr h)]

theorem schedule_congr (h : ∀ t < 16, block t = block' t) (t : Nat) : schedule block t = schedule block' t := by
  induction t using Nat.strongRecOn with
  | ind t ih =>
      by_cases ht : t < 16
      · rw [schedule_of_lt ht, schedule_of_lt ht, h t ht]
      · have ht := Nat.not_lt.mp ht
        rw [schedule_of_le ht, schedule_of_le ht, ih (t - 2) (by omega), ih (t - 7) (by omega),
          ih (t - 15) (by omega), ih (t - 16) (by omega)]

theorem compress_congr (value : HashValue) (h : ∀ t < 16, block t = block' t) :
    compress value block = compress value block' := by
  rw [compress, compress, funext (schedule_congr h)]

/-- The first block, and those after it. -/
theorem compressAll_cons (value : HashValue) (hlength : 64 ≤ bytes.length) :
    compressAll value (bytesBits bytes) =
      compressAll (compress value fun t => wordAt (bytesBits bytes) t) (bytesBits (bytes.drop 64)) := by
  have hcount : (bytesBits bytes).length / 512 = (bytesBits (bytes.drop 64)).length / 512 + 1 := by
    rw [length_bytesBits, length_bytesBits, List.length_drop]
    omega
  have hwords (index : Nat) : wordAt (bytesBits bytes) (index + 16) = wordAt (bytesBits (bytes.drop 64)) index := by
    rw [wordAt_bytesBits, wordAt_bytesBits, List.drop_drop, show 4 * (index + 16) = 64 + 4 * index by omega]
  have hstep : (fun value index => compress value fun t => wordAt (bytesBits bytes) (16 * (index + 1) + t)) =
      fun value index => compress value fun t => wordAt (bytesBits (bytes.drop 64)) (16 * index + t) := by
    funext value index
    have hblock (t : Nat) : wordAt (bytesBits bytes) (16 * (index + 1) + t) =
        wordAt (bytesBits (bytes.drop 64)) (16 * index + t) := by
      rw [← hwords, show 16 * (index + 1) + t = 16 * index + t + 16 by omega]
    rw [funext hblock]
  unfold compressAll
  rw [hcount, List.range_succ_eq_map, List.foldl_cons, List.foldl_map, ← hstep]
  simp only [Nat.mul_zero, Nat.zero_add, Nat.succ_eq_add_one]

theorem compressAll_nil (value : HashValue) (hlength : bytes.length < 64) :
    compressAll value (bytesBits bytes) = value := by
  have hcount : (bytesBits bytes).length / 512 = 0 := by
    rw [length_bytesBits]
    omega
  rw [compressAll, hcount]
  rfl

/-! ### Padding of bytes -/

/-- The zeros behind the first padding byte. -/
theorem paddingZeros_eq {length zeros : Nat} (h : (8 * length + 8 + 8 * zeros) % 512 = 448) (hsmall : zeros < 64) :
    paddingZeros (8 * length) = 7 + 8 * zeros := by
  apply le_antisymm
  · apply Nat.sInf_le
    rw [Set.mem_ofPred_eq]
    omega
  · refine le_csInf ⟨7 + 8 * zeros, ?_⟩ fun other hother => ?_
    · rw [Set.mem_ofPred_eq]
      omega
    · rw [Set.mem_ofPred_eq] at hother
      omega

/-- The bytes of a length, the most significant first. -/
def lengthBytes (length : BitVec 64) : List UInt8 :=
  [56, 48, 40, 32, 24, 16, 8, 0].map fun shift => ⟨(length >>> shift).setWidth 8⟩

def wordBytes (word : Word) : List UInt8 := [24, 16, 8, 0].map fun shift => ⟨(word >>> shift).setWidth 8⟩

theorem bitsOf_length (length : BitVec 64) : bitsOf length = bytesBits (lengthBytes length) := by
  simp [bitsOf, bytesBits, lengthBytes, List.ofFn_succ, BitVec.getMsbD]

theorem bitsOf_word (word : Word) : bitsOf word = bytesBits (wordBytes word) := by
  simp [bitsOf, bytesBits, wordBytes, List.ofFn_succ, BitVec.getMsbD]

theorem bytesBits_zeros (zeros : Nat) : bytesBits (List.replicate zeros 0) = List.replicate (8 * zeros) false := by
  induction zeros with
  | zero => rfl
  | succ zeros ih =>
      have hzero : bitsOf (0 : UInt8).toBitVec = List.replicate 8 false := by decide
      rw [List.replicate_succ, bytesBits, List.flatMap_cons, ← bytesBits, ih, hzero, ← List.replicate_add,
        Nat.mul_succ, Nat.add_comm]

/-- The padded message is a string of bytes. -/
theorem pad_bytesBits {zeros : Nat} (h : (8 * bytes.length + 8 + 8 * zeros) % 512 = 448) (hsmall : zeros < 64) :
    pad (bytesBits bytes) =
      bytesBits (bytes ++ 0x80 :: (List.replicate zeros 0 ++ lengthBytes (BitVec.ofNat 64 (8 * bytes.length)))) := by
  have hmark : bytesBits [0x80] = true :: List.replicate 7 false := by decide
  rw [pad, length_bytesBits, paddingZeros_eq h hsmall, bytesBits_append, ← @List.singleton_append UInt8 0x80,
    bytesBits_append, bytesBits_append, bytesBits_zeros, hmark, ← bitsOf_length, List.replicate_add]
  simp only [List.append_assoc, List.cons_append, List.nil_append]

end Sha256
