/-! # Blanks

The characters with the Unicode property White_Space, and texts without blanks at their ends.
Zero-width characters and the byte order mark are no blanks. -/

namespace ChainMigration.Text

/-- The character has the Unicode property White_Space. -/
def isBlank (c : Char) : Bool :=
  let n := c.toNat
  (0x9 ≤ n && n ≤ 0xD) || n == 0x20 || n == 0x85 || n == 0xA0 || n == 0x1680 ||
    (0x2000 ≤ n && n ≤ 0x200A) || n == 0x2028 || n == 0x2029 || n == 0x202F || n == 0x205F ||
    n == 0x3000

/-- The characters without the blanks before and after them. -/
def trimmed (cs : List Char) : List Char :=
  ((cs.dropWhile isBlank).reverse.dropWhile isBlank).reverse

/-- The text without the blanks before and after it. -/
def trim (s : String) : String := .ofList (trimmed s.toList)

end ChainMigration.Text
