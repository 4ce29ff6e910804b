/-! # Hexadecimal text

Bytes as two lowercase digits each, and back from digits of either case. -/

namespace ChainMigration

/-- A string of bytes. -/
abbrev Bytes := List UInt8

namespace Text

/-- The lowercase digit of a number below sixteen. -/
def hexDigit (n : Nat) : Char :=
  if n < 10 then .ofNat (n + '0'.toNat) else .ofNat (n - 10 + 'a'.toNat)

/-- The value of a hexadecimal digit of either case. -/
def hexValue? (c : Char) : Option Nat :=
  if c.isDigit then some (c.toNat - '0'.toNat)
  else if 'a' ≤ c ∧ c ≤ 'f' then some (c.toNat - 'a'.toNat + 10)
  else if 'A' ≤ c ∧ c ≤ 'F' then some (c.toNat - 'A'.toNat + 10)
  else none

/-- The two digits of each byte. -/
def hexDigits : Bytes → List Char
  | [] => []
  | b :: bs => hexDigit (b.toNat / 16) :: hexDigit (b.toNat % 16) :: hexDigits bs

/-- Bytes as lowercase hexadecimal text. -/
def hex (bs : Bytes) : String := .ofList (hexDigits bs)

/-- Reads pairs of digits as bytes. -/
def readHex? : List Char → Option Bytes
  | [] => some []
  | [_] => none
  | c :: d :: cs => do
    let high ← hexValue? c
    let low ← hexValue? d
    let rest ← readHex? cs
    return .ofNat (high * 16 + low) :: rest

/-- Reads exactly `count` bytes, with or without the mark 0x or 0X in front. -/
def readHexOf? (count : Nat) (cs : List Char) : Option Bytes :=
  let digits := match cs with
    | '0' :: 'x' :: rest => rest
    | '0' :: 'X' :: rest => rest
    | _ => cs
  if digits.length = 2 * count then readHex? digits else none

end Text

end ChainMigration
