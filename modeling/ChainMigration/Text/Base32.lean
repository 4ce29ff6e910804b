import ChainMigration.Text.Hex

/-! # Base 32 text

Bytes in the alphabet A to Z and 2 to 7, five bits to a character, without padding: the bits that
are left at the end are filled up with zeros. -/

namespace ChainMigration.Text

/-- The character of a number below 32. -/
def base32Digit (n : Nat) : Char :=
  if n < 26 then .ofNat (n + 'A'.toNat) else .ofNat (n - 26 + '2'.toNat)

/-- The number of a character of the alphabet. -/
def base32Value? (c : Char) : Option Nat :=
  if 'A' ≤ c ∧ c ≤ 'Z' then some (c.toNat - 'A'.toNat)
  else if '2' ≤ c ∧ c ≤ '7' then some (c.toNat - '2'.toNat + 26)
  else none

/-- The bits of a number of `width` bits, highest first. -/
def bitsOf : (width : Nat) → Nat → List Bool
  | 0, _ => []
  | width + 1, n => n.testBit width :: bitsOf width n

/-- The number whose bits are given, highest first. -/
def ofBits (bits : List Bool) : Nat := bits.foldl (fun n b => 2 * n + b.toNat) 0

/-- The bits cut into groups of `n + 1`, the last group possibly shorter. -/
def bitGroups (n : Nat) (bits : List Bool) : List (List Bool) :=
  match bits with
  | [] => []
  | bits@(_ :: rest) => bits.take (n + 1) :: bitGroups n (rest.drop n)
termination_by bits.length
decreasing_by simp only [List.length_drop, List.length_cons]; omega

/-- The characters of the bytes, five bits each. -/
def base32Digits (bs : Bytes) : List Char :=
  (bitGroups 4 (bs.flatMap fun b => bitsOf 8 b.toNat)).map fun group =>
    base32Digit (ofBits (group ++ .replicate (5 - group.length) false))

/-- Bytes as base 32 text. -/
def base32 (bs : Bytes) : String := .ofList (base32Digits bs)

/-- Reads base 32 text; bits left over must be zero and fewer than five. -/
def readBase32? (cs : List Char) : Option Bytes := do
  let digits ← cs.mapM base32Value?
  let bits := digits.flatMap (bitsOf 5)
  let (whole, rest) := (bits.take (bits.length / 8 * 8), bits.drop (bits.length / 8 * 8))
  if rest.length < 5 ∧ rest.all (!·) then
    return (bitGroups 7 whole).map fun group => .ofNat (ofBits group)
  else none

end ChainMigration.Text
