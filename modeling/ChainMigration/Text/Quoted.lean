import ChainMigration.Text.Hex
import ChainMigration.Text.Lowercase
import ChainMigration.Text.Unshown

/-! # Quoted texts

A text between double quotes as diagnostics show it: quotes and backslashes are escaped, and
characters that cannot be seen are shown by name or number. -/

namespace ChainMigration.Text

/-- The lowercase hexadecimal digits of a number, without leading zeros. -/
def hexNumber (n : Nat) : List Char := Nat.toDigits 16 n

/-- A character as it stands between the quotes. -/
def shownChar (c : Char) : List Char :=
  match c with
  | '\x00' => ['\\', '0']
  | '\t' => ['\\', 't']
  | '\n' => ['\\', 'n']
  | '\r' => ['\\', 'r']
  | '"' => ['\\', '"']
  | '\\' => ['\\', '\\']
  | c =>
    if inRuns unshownRuns c.toNat then ['\\', 'u', '\x7b'] ++ hexNumber c.toNat ++ ['\x7d'] else [c]

/-- The text between double quotes. -/
def quoted (s : String) : String := .ofList ('"' :: s.toList.flatMap shownChar ++ ['"'])

end ChainMigration.Text
