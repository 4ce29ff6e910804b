import ChainMigration.Yaml.Cursor

/-! # Blanks between words

The blanks and line breaks between two words of a plain or quoted scalar, and what they stand for: a
single line break stands for a blank, further ones for themselves. -/

namespace ChainMigration.Yaml

/-- Blanks and line breaks that have been passed: the blanks before the first break, that break, and
the breaks after it. `broken` holds once a break has been passed, which may count for nothing. -/
structure Spacing where
  blanks : List Char
  broken : Bool
  first : List Char
  further : List Char

namespace Spacing

/-- Nothing has been passed. -/
def none : Spacing := ⟨[], false, [], []⟩

/-- What the spacing stands for in the scalar. -/
def text (s : Spacing) : List Char :=
  if s.broken then
    if s.first = ['\n'] then (if s.further = [] then [' '] else s.further)
    else s.first ++ s.further
  else s.blanks

/-- Passes one break. -/
def addBreak (s : Spacing) (b : Char) : Spacing :=
  if s.broken then { s with further := s.further ++ [b] }
  else ⟨[], true, [b], []⟩

/-- Passes blanks and breaks. After a break, a tab left of the column `indent` is refused. -/
def scan (indent : Int) : (fuel : Nat) → Spacing → Cursor → Option (Spacing × Cursor)
  | 0, s, c => some (s, c)
  | fuel + 1, s, c =>
    match c.rest with
    | [] => some (s, c)
    | b :: _ =>
      if isBreak b then scan indent fuel (s.addBreak b) c.skipBreak
      else if isSpace b then
        if s.broken then
          if b = '\t' ∧ (c.column : Int) < indent then Option.none
          else scan indent fuel s (c.skip 1)
        else scan indent fuel { s with blanks := s.blanks ++ [b] } (c.skip 1)
      else some (s, c)

end Spacing

end ChainMigration.Yaml
