import Nullark.Lib.Bytes

/-! # Keccak-256

The sponge over the permutation of 25 lanes of 64 bits, with the padding that predates SHA-3
(`keccak256`). -/

namespace Nullark.Lib.Keccak

open Nullark.Lib.Bytes

abbrev Lane := BitVec 64

/-- The lane in column `x` and row `y` is at `x + 5 * y`. -/
def lane (state : List Lane) (x y : ℕ) : Lane := state.getD (x % 5 + 5 * (y % 5)) 0

def build (f : ℕ → ℕ → Lane) : List Lane := (List.range 25).map fun i => f (i % 5) (i / 5)

def theta (state : List Lane) : List Lane :=
  let columns := (List.range 5).map fun x =>
    lane state x 0 ^^^ lane state x 1 ^^^ lane state x 2 ^^^ lane state x 3 ^^^ lane state x 4
  let parity := (List.range 5).map fun x =>
    columns.getD ((x + 4) % 5) 0 ^^^ (columns.getD ((x + 1) % 5) 0).rotateLeft 1
  build fun x y => lane state x y ^^^ parity.getD x 0

/-- The rotations of the lanes. -/
def offsets : List ℕ :=
  [0, 1, 62, 28, 27, 36, 44, 6, 55, 20, 3, 10, 43, 25, 39, 41, 45, 15, 21, 8, 18, 2, 61, 56, 14]

/-- The lane that comes to `(x, y)` stood at `(x + 3 * y, x)`. -/
def rhoPi (state : List Lane) : List Lane :=
  build fun x y =>
    (lane state (x + 3 * y) x).rotateLeft (offsets.getD ((x + 3 * y) % 5 + 5 * x) 0)

def chi (state : List Lane) : List Lane :=
  build fun x y => lane state x y ^^^ (~~~lane state (x + 1) y &&& lane state (x + 2) y)

def roundConstants : List Lane :=
  [0x0000000000000001, 0x0000000000008082, 0x800000000000808a, 0x8000000080008000,
    0x000000000000808b, 0x0000000080000001, 0x8000000080008081, 0x8000000000008009,
    0x000000000000008a, 0x0000000000000088, 0x0000000080008009, 0x000000008000000a,
    0x000000008000808b, 0x800000000000008b, 0x8000000000008089, 0x8000000000008003,
    0x8000000000008002, 0x8000000000000080, 0x000000000000800a, 0x800000008000000a,
    0x8000000080008081, 0x8000000000008080, 0x0000000080000001, 0x8000000080008008]

def round (state : List Lane) (constant : Lane) : List Lane :=
  (chi (rhoPi (theta state))).modify 0 (· ^^^ constant)

def permute (state : List Lane) : List Lane := roundConstants.foldl round state

/-- The bytes taken in at a time. -/
def rate : ℕ := 136

/-- The data with a one after it and a one at the end of the last block. -/
def pad (data : List UInt8) : List UInt8 :=
  let missing := rate - data.length % rate
  if missing = 1 then data ++ [0x81]
  else data ++ 0x01 :: List.replicate (missing - 2) 0 ++ [0x80]

/-- The lane of 8 bytes, lowest first. -/
def readLane (data : List UInt8) : Lane := BitVec.ofNat 64 (beValue data.reverse)

def absorb (state : List Lane) (block : List UInt8) : List Lane :=
  permute (state.mapIdx fun i l => l ^^^ readLane ((block.drop (8 * i)).take 8))

/-- All blocks of padded data, `n` of them. -/
def absorbBlocks : ℕ → List Lane → List UInt8 → List Lane
  | 0, state, _ => state
  | n + 1, state, data => absorbBlocks n (absorb state (data.take rate)) (data.drop rate)

/-- **The digest**, as a word. -/
def keccak256 (data : List UInt8) : BitVec 256 :=
  let padded := pad data
  let state := absorbBlocks (padded.length / rate) (List.replicate 25 0) padded
  BitVec.ofNat 256 (beValue ((state.take 4).flatMap fun l => (beBytes 8 l.toNat).reverse))

example : keccak256 [] = 0xc5d2460186f7233c927e7db2dcc703c0e500b653ca82273b7bfad8045d85a470 := by
  decide +kernel

end Nullark.Lib.Keccak
