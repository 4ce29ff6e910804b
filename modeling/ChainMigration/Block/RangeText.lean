import ChainMigration.Block.Range
import ChainMigration.Text.Decimal

/-! # Ranges as JSON texts

Reading a range from a JSON array of its two ends. Blanks may stand between the parts; a number has
no sign, no leading zeros, no fraction and no exponent. -/

namespace ChainMigration.BlockRange

/-- The character may stand between the parts of a JSON text. -/
def isJsonBlank (c : Char) : Bool := c == ' ' || c == '\t' || c == '\n' || c == '\r'

/-- Skips blanks and takes the given character. -/
def expectChar (wanted : Char) (cs : List Char) : Option (List Char) :=
  match cs.dropWhile isJsonBlank with
  | c :: rest => if c = wanted then some rest else none
  | [] => none

/-- Skips blanks and takes a number of 64 bits without leading zeros. -/
def expectWord (cs : List Char) : Option (UInt64 × List Char) :=
  let cs := cs.dropWhile isJsonBlank
  let digits := cs.takeWhile Char.isDigit
  if digits.head? = some '0' ∧ digits.length ≠ 1 then none
  else match Text.readUnsigned UInt64.size digits with
    | .ok n => some (.ofNat n, cs.dropWhile Char.isDigit)
    | .error _ => none

/-- Reads a range from a JSON text. -/
def ofJson? (text : String) : Option BlockRange := do
  let cs ← expectChar '[' text.toList
  let (start, cs) ← expectWord cs
  let cs ← expectChar ',' cs
  let (stop, cs) ← expectWord cs
  let cs ← expectChar ']' cs
  if cs.all isJsonBlank then (between start stop).toOption else none

end ChainMigration.BlockRange
