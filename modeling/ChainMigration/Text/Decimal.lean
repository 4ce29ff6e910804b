/-! # Decimal numbers

Reading unsigned numbers in decimal digits with an optional plus sign, below a limit. The first
fault from the left decides the error. -/

namespace ChainMigration.Text

/-- Why a text is no number. -/
inductive NumberError
  | empty
  | invalidDigit
  | tooLarge
deriving DecidableEq

/-- The wording of a number error. -/
def NumberError.message : NumberError → String
  | .empty => "cannot parse integer from empty string"
  | .invalidDigit => "invalid digit found in string"
  | .tooLarge => "number too large to fit in target type"

/-- The value of a decimal digit. -/
def digitValue (c : Char) : Nat := c.toNat - '0'.toNat

/-- Reads digits onto the number `acc`, which must stay below `limit`. -/
def readDigits (limit : Nat) (acc : Nat) : List Char → Except NumberError Nat
  | [] => .ok acc
  | c :: cs =>
    if c.isDigit then
      if acc * 10 + digitValue c < limit then readDigits limit (acc * 10 + digitValue c) cs
      else .error .tooLarge
    else .error .invalidDigit

/-- Reads an unsigned number below `limit`; a sign needs a digit after it. -/
def readUnsigned (limit : Nat) : List Char → Except NumberError Nat
  | [] => .error .empty
  | ['+'] => .error .invalidDigit
  | '+' :: cs => readDigits limit 0 cs
  | cs => readDigits limit 0 cs

/-- Reads a height, page or count of 64 bits. -/
def readWord (s : String) : Except NumberError Nat := readUnsigned UInt64.size s.toList

/-- Reads a signed number of 64 bits, if the text is one. -/
def readSigned? (s : String) : Option Int :=
  match s.toList with
  | '-' :: c :: cs => (readDigits 0x8000_0000_0000_0001 0 (c :: cs)).toOption.map (-Int.ofNat ·)
  | cs => (readUnsigned 0x8000_0000_0000_0000 cs).toOption.map Int.ofNat

end ChainMigration.Text
