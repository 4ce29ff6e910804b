import ChainMigration.Yaml.Char

/-! # Reading position

What is left of a document, with the place of its first character. -/

namespace ChainMigration.Yaml

/-- The rest of a document and the line, the column and the number of its first character. -/
structure Cursor where
  rest : List Char
  line : Nat
  column : Nat
  index : Nat

namespace Cursor

/-- The start of a document. -/
def start (cs : List Char) : Cursor := ⟨cs, 0, 0, 0⟩

/-- Passes characters within a line. -/
def skip (c : Cursor) (count : Nat) : Cursor :=
  { c with rest := c.rest.drop count, column := c.column + count, index := c.index + count }

/-- Passes a line break. -/
def skipBreak (c : Cursor) : Cursor :=
  { c with rest := c.rest.drop 1, line := c.line + 1, column := 0, index := c.index + 1 }

/-- Passes a line break if there is one. -/
def skipBreak? (c : Cursor) : Cursor :=
  match c.rest with
  | b :: _ => if isBreak b then c.skipBreak else c
  | [] => c

/-- The characters with the property in front, which lie within one line. -/
def run (c : Cursor) (p : Char → Bool) : List Char × Cursor :=
  let taken := c.rest.takeWhile p
  (taken, c.skip taken.length)

/-- Passes the characters with the property in front. -/
def skipRun (c : Cursor) (p : Char → Bool) : Cursor := (c.run p).2

/-- Passes a comment up to the end of its line. -/
def skipComment (c : Cursor) : Cursor :=
  if c.rest.head? = some '#' then c.skipRun (!isBreak ·) else c

/-- A line starts here with the given three characters alone. -/
def atMark (c : Cursor) (mark : Char) : Bool :=
  c.column == 0 && c.rest.take 3 == [mark, mark, mark] && endsWord (c.rest.drop 3)

/-- A line starts here that begins or ends a document. -/
def atDocumentMark (c : Cursor) : Bool := c.atMark '-' || c.atMark '.'

end Cursor

end ChainMigration.Yaml
