/-! # Character classes of YAML

Which characters a document may hold, which end a line, and which a printer may show as they are. A
document is brought into the form that the reader works on by `Source.ofChars?`: no byte order mark
in front and one character for each line break. -/

namespace ChainMigration.Yaml

/-- The character may stand in a document. -/
def isAllowed (c : Char) : Bool :=
  let n := c.toNat
  n == 0x9 || n == 0xA || n == 0xD || (0x20 ≤ n && n ≤ 0x7E) || n == 0x85 ||
    (0xA0 ≤ n && n ≤ 0xFFFD) || 0x10000 ≤ n

/-- The character ends a line, once the breaks of a document have one form. -/
def isBreak (c : Char) : Bool := c == '\n' || c.toNat == 0x2028 || c.toNat == 0x2029

/-- The character is a blank within a line. -/
def isSpace (c : Char) : Bool := c == ' ' || c == '\t'

/-- The character ends a word. -/
def isSpaceOrBreak (c : Char) : Bool := isSpace c || isBreak c

/-- There is a blank, a line break or the end of the document. -/
def endsWord : List Char → Bool
  | [] => true
  | c :: _ => isSpaceOrBreak c

/-- There is a line break or the end of the document. -/
def endsLine : List Char → Bool
  | [] => true
  | c :: _ => isBreak c

/-- The character may stand in the name of an anchor, a directive or a tag handle. -/
def isNameChar (c : Char) : Bool := c.isAlphanum || c == '_' || c == '-'

/-- The character is shown as it is between double quotes. -/
def isPrintable (c : Char) : Bool :=
  let n := c.toNat
  n == 0xA || (0x20 ≤ n && n ≤ 0x7E) || (0xA0 ≤ n && n ≤ 0xFFFD && n != 0xFEFF) || 0x10000 ≤ n

/-- The byte order mark. -/
def byteOrderMark : Char := .ofNat 0xFEFF

namespace Source

/-- Gives all breaks but the line and paragraph separators one form. -/
def unifyBreaks : List Char → List Char
  | [] => []
  | '\r' :: '\n' :: cs => '\n' :: unifyBreaks cs
  | '\r' :: cs => '\n' :: unifyBreaks cs
  | c :: cs => (if c.toNat = 0x85 then '\n' else c) :: unifyBreaks cs

/-- The characters of a document for the reader, if all of them are allowed. -/
def ofChars? (cs : List Char) : Option (List Char) :=
  if cs.all isAllowed then
    some (unifyBreaks (if cs.head? = some byteOrderMark then cs.drop 1 else cs))
  else none

end Source

end ChainMigration.Yaml
