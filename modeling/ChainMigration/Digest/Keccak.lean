import ChainMigration.Text.Hex

/-! # Keccak-256

The sponge over 25 lanes of 64 bits with a rate of 136 bytes. The lane in column `x` and row `y`
has the index `x + 5 * y`. -/

namespace ChainMigration.Digest

/-- The state of the sponge. -/
abbrev Lanes := Vector UInt64 25

namespace Keccak

/-- The bytes that one block brings into the state. -/
def rate : Nat := 136

/-- The constants of the rounds. -/
def roundConstants : List UInt64 := [
  0x0000000000000001, 0x0000000000008082, 0x800000000000808A, 0x8000000080008000,
  0x000000000000808B, 0x0000000080000001, 0x8000000080008081, 0x8000000000008009,
  0x000000000000008A, 0x0000000000000088, 0x0000000080008009, 0x000000008000000A,
  0x000000008000808B, 0x800000000000008B, 0x8000000000008089, 0x8000000000008003,
  0x8000000000008002, 0x8000000000000080, 0x000000000000800A, 0x800000008000000A,
  0x8000000080008081, 0x8000000000008080, 0x0000000080000001, 0x8000000080008008]

/-- How far each lane is rotated. -/
def rotations : Vector UInt64 25 := #v[
  0, 1, 62, 28, 27,
  36, 44, 6, 55, 20,
  3, 10, 43, 25, 39,
  41, 45, 15, 21, 8,
  18, 2, 61, 56, 14]

/-- Rotation to the left. -/
def rotate (x n : UInt64) : UInt64 := (x <<< n) ||| (x >>> (64 - n))

/-- The lane in a column and a row, both counted modulo five. -/
def lane (a : Lanes) (x y : Nat) : UInt64 :=
  a.get ⟨x % 5 + 5 * (y % 5), by omega⟩

/-- The lanes given by column and row. -/
def ofLanes (f : Nat → Nat → UInt64) : Lanes := .ofFn fun i => f (i.val % 5) (i.val / 5)

/-- Adds to each lane the parity of two neighbouring columns. -/
def theta (a : Lanes) : Lanes :=
  let parity : Vector UInt64 5 := .ofFn fun x =>
    lane a x 0 ^^^ lane a x 1 ^^^ lane a x 2 ^^^ lane a x 3 ^^^ lane a x 4
  let column (x : Nat) : UInt64 := parity.get ⟨x % 5, by omega⟩
  ofLanes fun x y => lane a x y ^^^ column (x + 4) ^^^ rotate (column (x + 1)) 1

/-- Rotates each lane and moves it to its new place. -/
def rhoPi (a : Lanes) : Lanes :=
  let turned : Lanes := .zipWith rotate a rotations
  ofLanes fun x y => lane turned (x + 3 * y) x

/-- Combines each lane with the two that follow it in its row. -/
def chi (a : Lanes) : Lanes :=
  ofLanes fun x y => lane a x y ^^^ (~~~lane a (x + 1) y &&& lane a (x + 2) y)

/-- One round with its constant. -/
def round (a : Lanes) (constant : UInt64) : Lanes :=
  let b := chi (rhoPi (theta a))
  b.set 0 (b[0] ^^^ constant)

/-- The permutation of the state. -/
def permute (a : Lanes) : Lanes := roundConstants.foldl round a

/-- Eight bytes, lowest first, as a lane. -/
def laneOf (bs : Bytes) : UInt64 := bs.foldr (fun b acc => acc <<< 8 ||| b.toUInt64) 0

/-- The eight bytes of a lane, lowest first. -/
def laneBytes (x : UInt64) : Bytes :=
  [0, 8, 16, 24, 32, 40, 48, 56].map fun (n : UInt64) => (x >>> n).toUInt8

/-- Adds one block of 136 bytes to the state and permutes it. -/
def absorb (a : Lanes) (block : Bytes) : Lanes :=
  permute (.ofFn fun i => a[i] ^^^ laneOf ((block.drop (8 * i.val)).take 8))

/-- Absorbs all whole blocks of a message. -/
def absorbAll (a : Lanes) (message : Bytes) : Lanes :=
  if message.length < rate then a
  else absorbAll (absorb a (message.take rate)) (message.drop rate)
termination_by message.length
decreasing_by
  have : 0 < rate := by decide
  simp only [List.length_drop]
  omega

/-- What is put after a message of this length to fill its last block. -/
def padding (length : Nat) : Bytes :=
  match rate - 1 - length % rate with
  | 0 => [0x81]
  | zeros + 1 => 0x01 :: .replicate zeros 0 ++ [0x80]

end Keccak

/-- The Keccak-256 digest of a message: 32 bytes. -/
def keccak256 (message : Bytes) : Bytes :=
  let a := Keccak.absorbAll (.replicate 25 0) (message ++ Keccak.padding message.length)
  Keccak.laneBytes a[0] ++ Keccak.laneBytes a[1] ++ Keccak.laneBytes a[2] ++ Keccak.laneBytes a[3]

end ChainMigration.Digest
