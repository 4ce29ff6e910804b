import ChainMigration.Text.Blank
import ChainMigration.Text.Decimal

/-! # Places of rows

The place of a row in a table is written as a page and a number in the page, between parentheses and
with a comma between them. -/

namespace ChainMigration

/-- The characters between a pair of parentheses that encloses all of them. -/
def enclosed? : List Char → Option (List Char)
  | '(' :: cs => if cs.getLast? = some ')' then some cs.dropLast else none
  | _ => none

/-- The characters before and after the first comma. -/
def cutAtComma? : List Char → Option (List Char × List Char)
  | [] => none
  | ',' :: cs => some ([], cs)
  | c :: cs => (cutAtComma? cs).map fun (before, after) => (c :: before, after)

/-- A number of 64 bits with blanks around it. -/
def wordBetweenBlanks? (cs : List Char) : Option Nat :=
  (Text.readUnsigned UInt64.size (Text.trimmed cs)).toOption

/-- The page of a place. -/
def pageOfPlace? (text : String) : Option Nat := do
  let inner ← enclosed? (Text.trimmed text.toList)
  let (page, row) ← cutAtComma? inner
  let _ ← wordBetweenBlanks? row
  wordBetweenBlanks? page

end ChainMigration
