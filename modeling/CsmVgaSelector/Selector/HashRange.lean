import CsmVgaSelector.Config.Text

/-!
# The hash of a range

The boot hashes ranges of memory to see whether they have changed. A buffer for the digest is always given here.
-/

namespace CsmVgaSelector

def rotateRight32 (value count : UInt32) : UInt32 := (value >>> count) ||| (value <<< (32 - count))

/-- `Constants`. -/
def sha256Constants : List UInt32 :=
  [0x428a2f98, 0x71374491, 0xb5c0fbcf, 0xe9b5dba5,
    0x3956c25b, 0x59f111f1, 0x923f82a4, 0xab1c5ed5,
    0xd807aa98, 0x12835b01, 0x243185be, 0x550c7dc3,
    0x72be5d74, 0x80deb1fe, 0x9bdc06a7, 0xc19bf174,
    0xe49b69c1, 0xefbe4786, 0x0fc19dc6, 0x240ca1cc,
    0x2de92c6f, 0x4a7484aa, 0x5cb0a9dc, 0x76f988da,
    0x983e5152, 0xa831c66d, 0xb00327c8, 0xbf597fc7,
    0xc6e00bf3, 0xd5a79147, 0x06ca6351, 0x14292967,
    0x27b70a85, 0x2e1b2138, 0x4d2c6dfc, 0x53380d13,
    0x650a7354, 0x766a0abb, 0x81c2c92e, 0x92722c85,
    0xa2bfe8a1, 0xa81a664b, 0xc24b8b70, 0xc76c51a3,
    0xd192e819, 0xd6990624, 0xf40e3585, 0x106aa070,
    0x19a4c116, 0x1e376c08, 0x2748774c, 0x34b0bcb5,
    0x391c0cb3, 0x4ed8aa4a, 0x5b9cca4f, 0x682e6ff3,
    0x748f82ee, 0x78a5636f, 0x84c87814, 0x8cc70208,
    0x90befffa, 0xa4506ceb, 0xbef9a3f7, 0xc67178f2]

/-- `State[8]`, and the variables `A` to `H`. -/
structure Sha256State where
  a : UInt32
  b : UInt32
  c : UInt32
  d : UInt32
  e : UInt32
  f : UInt32
  g : UInt32
  h : UInt32
  deriving DecidableEq

/-- A word of the block. -/
def blockWord (block : Bytes) (index : Nat) : UInt32 :=
  (block.getD (index * 4) 0).toUInt32 <<< 24 ||| (block.getD (index * 4 + 1) 0).toUInt32 <<< 16 |||
    (block.getD (index * 4 + 2) 0).toUInt32 <<< 8 ||| (block.getD (index * 4 + 3) 0).toUInt32

/-- The next word, from those before it. -/
def nextWord (words : List UInt32) (index : Nat) : UInt32 :=
  (rotateRight32 (words.getD (index - 2) 0) 17 ^^^ rotateRight32 (words.getD (index - 2) 0) 19 ^^^
      words.getD (index - 2) 0 >>> 10) +
    words.getD (index - 7) 0 +
    (rotateRight32 (words.getD (index - 15) 0) 7 ^^^ rotateRight32 (words.getD (index - 15) 0) 18 ^^^
      words.getD (index - 15) 0 >>> 3) +
    words.getD (index - 16) 0

/-- `Words`: sixteen from the block, and forty-eight more. -/
def messageWords (block : Bytes) : List UInt32 :=
  (List.range' 16 48).foldl (fun words index => words ++ [nextWord words index])
    ((List.range 16).map (blockWord block))

def sha256Round (words : List UInt32) (state : Sha256State) (index : Nat) : Sha256State :=
  let temporary1 := state.h +
    (rotateRight32 state.e 6 ^^^ rotateRight32 state.e 11 ^^^ rotateRight32 state.e 25) +
    ((state.e &&& state.f) ^^^ (~~~state.e &&& state.g)) + sha256Constants.getD index 0 + words.getD index 0
  let temporary2 := (rotateRight32 state.a 2 ^^^ rotateRight32 state.a 13 ^^^ rotateRight32 state.a 22) +
    ((state.a &&& state.b) ^^^ (state.a &&& state.c) ^^^ (state.b &&& state.c))
  { a := temporary1 + temporary2
    b := state.a
    c := state.b
    d := state.c
    e := state.d + temporary1
    f := state.e
    g := state.f
    h := state.g }

def sha256Block (state : Sha256State) (block : Bytes) : Sha256State :=
  let final := (List.range 64).foldl (sha256Round (messageWords block)) state
  { a := state.a + final.a
    b := state.b + final.b
    c := state.c + final.c
    d := state.d + final.d
    e := state.e + final.e
    f := state.f + final.f
    g := state.g + final.g
    h := state.h + final.h }

def sha256Start : Sha256State where
  a := 0x6a09e667
  b := 0xbb67ae85
  c := 0x3c6ef372
  d := 0xa54ff53a
  e := 0x510e527f
  f := 0x9b05688c
  g := 0x1f83d9ab
  h := 0x5be0cd19

/-- The loop over whole blocks: the state, and what remains. -/
def hashBlocks (state : Sha256State) (data : Bytes) : Sha256State × Bytes :=
  if 64 ≤ data.length then hashBlocks (sha256Block state (data.take 64)) (data.drop 64) else (state, data)
termination_by data.length
decreasing_by
  rw [List.length_drop]
  omega

def tailBytes (remaining : Nat) : Nat := if remaining < 56 then 64 else 128

/-- `Tail`. -/
def hashTail (remaining : Bytes) (bitCount : UInt64) : Bytes :=
  let start := ((remaining ++ List.replicate (128 - remaining.length) 0).set remaining.length 0x80)
  [(8, 56), (7, 48), (6, 40), (5, 32), (4, 24), (3, 16), (2, 8), (1, 0)].foldl
    (fun tail (place, shift) => tail.set (tailBytes remaining.length - place) (bitCount >>> shift).toUInt8) start

def digestWord (word : UInt32) : Bytes :=
  [(word >>> 24).toUInt8, (word >>> 16).toUInt8, (word >>> 8).toUInt8, word.toUInt8]

def hashRange (data : Bytes) : Bytes :=
  let (state, remaining) := hashBlocks sha256Start data
  let tail := hashTail remaining (data.length.toUInt64 * 8)
  let state := sha256Block state (tail.take 64)
  let state := if tailBytes remaining.length = 128 then sha256Block state (tail.drop 64) else state
  [state.a, state.b, state.c, state.d, state.e, state.f, state.g, state.h].flatMap digestWord

end CsmVgaSelector
