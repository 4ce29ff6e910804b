import ChainMigration.Text.Hex

/-! # SHA-256

Eight words of 32 bits are carried through 64 rounds for every block of 64 bytes. -/

namespace ChainMigration.Digest

/-- The chaining value. -/
abbrev Words := Vector UInt32 8

namespace Sha256

/-- The constants of the rounds. -/
def roundConstants : List UInt32 := [
  0x428a2f98, 0x71374491, 0xb5c0fbcf, 0xe9b5dba5, 0x3956c25b, 0x59f111f1, 0x923f82a4, 0xab1c5ed5,
  0xd807aa98, 0x12835b01, 0x243185be, 0x550c7dc3, 0x72be5d74, 0x80deb1fe, 0x9bdc06a7, 0xc19bf174,
  0xe49b69c1, 0xefbe4786, 0x0fc19dc6, 0x240ca1cc, 0x2de92c6f, 0x4a7484aa, 0x5cb0a9dc, 0x76f988da,
  0x983e5152, 0xa831c66d, 0xb00327c8, 0xbf597fc7, 0xc6e00bf3, 0xd5a79147, 0x06ca6351, 0x14292967,
  0x27b70a85, 0x2e1b2138, 0x4d2c6dfc, 0x53380d13, 0x650a7354, 0x766a0abb, 0x81c2c92e, 0x92722c85,
  0xa2bfe8a1, 0xa81a664b, 0xc24b8b70, 0xc76c51a3, 0xd192e819, 0xd6990624, 0xf40e3585, 0x106aa070,
  0x19a4c116, 0x1e376c08, 0x2748774c, 0x34b0bcb5, 0x391c0cb3, 0x4ed8aa4a, 0x5b9cca4f, 0x682e6ff3,
  0x748f82ee, 0x78a5636f, 0x84c87814, 0x8cc70208, 0x90befffa, 0xa4506ceb, 0xbef9a3f7, 0xc67178f2]

/-- The chaining value before the first block. -/
def initial : Words := #v[
  0x6a09e667, 0xbb67ae85, 0x3c6ef372, 0xa54ff53a, 0x510e527f, 0x9b05688c, 0x1f83d9ab, 0x5be0cd19]

/-- Rotation to the right. -/
def rotate (x n : UInt32) : UInt32 := (x >>> n) ||| (x <<< (32 - n))

/-- Four bytes, highest first, as a word. -/
def wordOf (bs : Bytes) : UInt32 := bs.foldl (fun acc b => acc <<< 8 ||| b.toUInt32) 0

/-- The four bytes of a word, highest first. -/
def wordBytes (x : UInt32) : Bytes := [24, 16, 8, 0].map fun (n : UInt32) => (x >>> n).toUInt8

/-- The words of a block. -/
def blockWords (block : Bytes) : List UInt32 :=
  (List.range 16).map fun i => wordOf ((block.drop (4 * i)).take 4)

/-- The word that follows the last sixteen words of the schedule. -/
def nextWord (last : List UInt32) : UInt32 :=
  let s0 (x : UInt32) := rotate x 7 ^^^ rotate x 18 ^^^ (x >>> 3)
  let s1 (x : UInt32) := rotate x 17 ^^^ rotate x 19 ^^^ (x >>> 10)
  last.getD 0 0 + s0 (last.getD 1 0) + last.getD 9 0 + s1 (last.getD 14 0)

/-- The next `count` words of the schedule, from the last sixteen on. -/
def schedule : (count : Nat) → (last : List UInt32) → List UInt32
  | 0, _ => []
  | count + 1, last => last.getD 0 0 :: schedule count (last.drop 1 ++ [nextWord last])

/-- One round with the sum of its constant and its word. -/
def round (v : Words) (added : UInt32) : Words :=
  let choice := (v[4] &&& v[5]) ^^^ (~~~v[4] &&& v[6])
  let majority := (v[0] &&& v[1]) ^^^ (v[0] &&& v[2]) ^^^ (v[1] &&& v[2])
  let sum1 := rotate v[4] 6 ^^^ rotate v[4] 11 ^^^ rotate v[4] 25
  let sum0 := rotate v[0] 2 ^^^ rotate v[0] 13 ^^^ rotate v[0] 22
  let first := v[7] + sum1 + choice + added
  #v[first + sum0 + majority, v[0], v[1], v[2], v[3] + first, v[4], v[5], v[6]]

/-- Takes one block of 64 bytes into the chaining value. -/
def compress (v : Words) (block : Bytes) : Words :=
  let added := List.zipWith (· + ·) roundConstants (schedule 64 (blockWords block))
  .zipWith (· + ·) v (added.foldl round v)

/-- Takes all whole blocks of a message into the chaining value. -/
def compressAll (v : Words) (message : Bytes) : Words :=
  if message.length < 64 then v
  else compressAll (compress v (message.take 64)) (message.drop 64)
termination_by message.length
decreasing_by simp only [List.length_drop]; omega

/-- What is put after a message of this length: a one bit, zeros and the length in bits. -/
def padding (length : Nat) : Bytes :=
  let bits := (8 * length).toUInt64
  0x80 :: .replicate ((119 - length % 64) % 64) 0 ++
    [56, 48, 40, 32, 24, 16, 8, 0].map fun (n : UInt64) => (bits >>> n).toUInt8

end Sha256

/-- The SHA-256 digest of a message: 32 bytes. -/
def sha256 (message : Bytes) : Bytes :=
  let v := Sha256.compressAll Sha256.initial (message ++ Sha256.padding message.length)
  v.toList.flatMap Sha256.wordBytes

end ChainMigration.Digest
