import ChainMigration.Yaml.Char
import ChainMigration.Yaml.Scalar

/-! # Writing documents

Nodes in block style, indented by two blanks; items of a list stand below their key without
indentation. A text is written plain if it reads back as itself, otherwise in the first of the other
styles that can hold it. -/

namespace ChainMigration.Yaml

namespace ScalarStyle

/-- The characters begin with three dashes or three dots. -/
def startsWithMark (cs : List Char) : Bool :=
  cs.take 3 == ['-', '-', '-'] || cs.take 3 == ['.', '.', '.']

/-- A character has a meaning of its own at the start of a plain text. -/
def isLeadingIndicator (c : Char) (cs : List Char) : Bool :=
  "#,[]\x7b\x7d&*!|>\x27\x22%@\x60".toList.contains c ||
    ((c == '?' || c == ':' || c == '-') && endsWord cs)

/-- A colon before a blank or a number sign after one, past the first character. -/
def hasInnerIndicator : Char → List Char → Bool
  | _, [] => false
  | before, c :: cs =>
    (c == ':' && endsWord cs) || (c == '#' && isSpaceOrBreak before) || hasInnerIndicator c cs

/-- A character that plain, single-quoted and literal texts cannot hold. -/
def hasSpecial (cs : List Char) : Bool := cs.any (!isPrintable ·)

/-- Two neighbouring characters have the properties. -/
def hasPair (p q : Char → Bool) : List Char → Bool
  | c :: d :: cs => (p c && q d) || hasPair p q (d :: cs)
  | _ => false

/-- A blank or a break stands at one of the ends. -/
def hasOuterBlank (cs : List Char) : Bool :=
  let outer (c : Char) := c == ' ' || isBreak c
  cs.head?.any outer || cs.getLast?.any outer

/-- The text can be written plain. -/
def allowsPlain (cs : List Char) : Bool :=
  match cs with
  | [] => true
  | c :: rest =>
    !(startsWithMark cs || isLeadingIndicator c rest || hasInnerIndicator c rest || hasSpecial cs ||
      hasOuterBlank cs || cs.any isBreak)

/-- The text can be written between single quotes. -/
def allowsSingle (cs : List Char) : Bool :=
  !(hasSpecial cs || hasPair isBreak (· == ' ') cs || hasPair (· == ' ') isBreak cs)

/-- The text can be written as literal lines. -/
def allowsLiteral (cs : List Char) : Bool :=
  !(hasSpecial cs || cs.getLast? == some ' ' || hasPair (· == ' ') isBreak cs)

/-- The style in which a text is written. -/
def ofText (text : String) : ScalarStyle :=
  let cs := text.toList
  if cs.contains '\n' then (if allowsLiteral cs then .literal else .doubleQuoted)
  else if allowsPlain cs && !Scalar.isTyped text then .plain
  else if allowsSingle cs then .singleQuoted
  else .doubleQuoted

end ScalarStyle

/-- A text as a scalar in the style that suits it. -/
def Node.ofText (text : String) : Node := .scalar (.ofText text) none text

namespace Render

/-- So many blanks. -/
def blanks (count : Nat) : List Char := .replicate count ' '

/-- The lines of a literal text: every line that is not empty is indented. -/
def literalLines (indent : Nat) : (afterBreak : Bool) → List Char → List Char
  | _, [] => []
  | afterBreak, c :: cs =>
    if isBreak c then c :: literalLines indent true cs
    else (if afterBreak then blanks indent else []) ++ c :: literalLines indent false cs

/-- The sign that sets the indentation: it is needed where the text starts with a blank or a break.
-/
def indentationSign : List Char → List Char
  | [] => []
  | c :: _ => if c == ' ' || isBreak c then ['2'] else []

/-- The sign that sets what becomes of the breaks at the end. -/
def chompingSign (cs : List Char) : List Char :=
  match cs.reverse with
  | [] => ['-']
  | c :: rest =>
    if !isBreak c then ['-']
    else match rest with
      | [] => ['+']
      | d :: _ => if isBreak d then ['+'] else []

/-- A literal text with its signs. -/
def literal (indent : Nat) (cs : List Char) : List Char :=
  '|' :: indentationSign cs ++ chompingSign cs ++ ['\n'] ++ literalLines indent true cs ++
    (if cs.getLast?.any isBreak then [] else ['\n'])

/-- The characters between single quotes: a quote is written twice, and what stands after a break is
indented, the closing quote included. -/
def singleQuotedChars (indent : Nat) : (afterBreak : Bool) → List Char → List Char
  | afterBreak, [] => if afterBreak then blanks indent else []
  | afterBreak, c :: cs =>
    if isBreak c then c :: singleQuotedChars indent true cs
    else (if afterBreak then blanks indent else []) ++ (if c = '\'' then ['\'', '\''] else [c]) ++
      singleQuotedChars indent false cs

/-- The escape of a character in double quotes. -/
def escape (c : Char) : List Char :=
  let number (mark : Char) (width : Nat) : List Char :=
    let digits := (Nat.toDigits 16 c.toNat).map Char.toUpper
    '\\' :: mark :: .replicate (width - digits.length) '0' ++ digits
  match c.toNat with
  | 0x00 => ['\\', '0']
  | 0x07 => ['\\', 'a']
  | 0x08 => ['\\', 'b']
  | 0x09 => ['\\', 't']
  | 0x0A => ['\\', 'n']
  | 0x0B => ['\\', 'v']
  | 0x0C => ['\\', 'f']
  | 0x0D => ['\\', 'r']
  | 0x1B => ['\\', 'e']
  | 0x22 => ['\\', '\x22']
  | 0x5C => ['\\', '\\']
  | 0x85 => ['\\', 'N']
  | 0x2028 => ['\\', 'L']
  | 0x2029 => ['\\', 'P']
  | n => if n ≤ 0xFF then number 'x' 2 else if n ≤ 0xFFFF then number 'u' 4 else number 'U' 8

/-- A character as it stands between double quotes. -/
def doubleQuotedChar (c : Char) : List Char :=
  if !isPrintable c || isBreak c || c == '\x22' || c == '\\' then escape c else [c]

/-- A scalar with the end of its line; lines after the first are indented. -/
def scalar (indent : Nat) (style : ScalarStyle) (cs : List Char) : List Char :=
  match style with
  | .plain => cs ++ ['\n']
  | .singleQuoted => '\'' :: singleQuotedChars indent false cs ++ ['\'', '\n']
  | .doubleQuoted => '\x22' :: cs.flatMap doubleQuotedChar ++ ['\x22', '\n']
  | .literal | .folded => literal indent cs

mutual

/-- What follows a key whose mapping is indented. -/
def afterKey (indent : Nat) : Node → List Char
  | .scalar style _ text => ' ' :: scalar (indent + 2) style text.toList
  | .sequence [] => [' ', '[', ']', '\n']
  | .sequence items => '\n' :: itemLines indent items
  | .mapping [] => [' ', '{', '}', '\n']
  | .mapping entries => '\n' :: entryLines (indent + 2) entries
  | .alias _ => ['\n']

/-- What follows the dash of an item that is indented. -/
def afterDash (indent : Nat) : Node → List Char
  | .scalar style _ text => ' ' :: scalar (indent + 2) style text.toList
  | .sequence [] => [' ', '[', ']', '\n']
  | .sequence items => ' ' :: (itemLines (indent + 2) items).drop (indent + 2)
  | .mapping [] => [' ', '{', '}', '\n']
  | .mapping entries => ' ' :: (entryLines (indent + 2) entries).drop (indent + 2)
  | .alias _ => ['\n']

/-- The lines of the items of a list. -/
def itemLines (indent : Nat) : List Node → List Char
  | [] => []
  | item :: items => blanks indent ++ '-' :: afterDash indent item ++ itemLines indent items

/-- The lines of the entries of a mapping, whose keys are scalars. -/
def entryLines (indent : Nat) : List (Node × Node) → List Char
  | [] => []
  | (.scalar _ _ key, value) :: entries =>
    blanks indent ++ key.toList ++ ':' :: afterKey indent value ++ entryLines indent entries
  | (_, _) :: entries => entryLines indent entries

end

end Render

/-- The text of a document whose root is a mapping. -/
def Node.render (n : Node) : String :=
  match n with
  | .mapping entries => .ofList (Render.entryLines 0 entries)
  | _ => ""

end ChainMigration.Yaml
