import ChainMigration.Digest.Keccak

/-! # Account addresses

Twenty bytes, shown with the checksum that lies in the case of the letters: a letter is a capital
where the digest of the lowercase digits has a high half byte. -/

namespace ChainMigration.Chain

/-- A digit with its half byte of the digest. -/
def checksumDigit (digit : Char) (half : Nat) : Char :=
  if digit.isLower ∧ 8 ≤ half then digit.toUpper else digit

/-- The half bytes of a string of bytes, high half first. -/
def halves : Bytes → List Nat
  | [] => []
  | b :: bs => b.toNat / 16 :: b.toNat % 16 :: halves bs

/-- The text of an address with its checksum. -/
def checksumText (address : Bytes) : String :=
  let digits := Text.hexDigits address
  let digest := Digest.keccak256 (digits.map fun c => c.toNat.toUInt8)
  .ofList ('0' :: 'x' :: List.zipWith checksumDigit digits (halves digest))

end ChainMigration.Chain
