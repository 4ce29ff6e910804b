import ChainMigration.Yaml.Spacing

/-! # Plain scalars

Text without quotes. It ends before a colon or a comment sign that stands apart, before a line that
is not indented enough, and within brackets before a bracket or a comma. -/

namespace ChainMigration.Yaml

/-- The character has a meaning of its own within brackets. -/
def isFlowIndicator (c : Char) : Bool :=
  c == ',' || c == '[' || c == ']' || c == '{' || c == '}'

namespace PlainScalar

/-- The word in front and what follows it. Within brackets a colon may not touch an indicator. -/
def word (inFlow : Bool) : List Char → Option (List Char × List Char)
  | [] => some ([], [])
  | c :: cs =>
    if isSpaceOrBreak c then some ([], c :: cs)
    else if inFlow && c == ':' && cs.head?.any (fun d => isFlowIndicator d || d == '?') then none
    else if (c == ':' && endsWord cs) || (inFlow && isFlowIndicator c) then some ([], c :: cs)
    else (word inFlow cs).map fun (w, rest) => (c :: w, rest)

/-- A scalar with the place after it; `afterBreak` tells that line breaks were passed after it. -/
structure Result where
  text : List Char
  afterBreak : Bool
  cursor : Cursor

/-- Reads words while they belong to the scalar. -/
def scan (inFlow : Bool) (indent : Int) :
    (fuel : Nat) → List Char → Spacing → Cursor → Option Result
  | 0, text, spacing, c => some ⟨text, spacing.broken, c⟩
  | fuel + 1, text, spacing, c =>
    if c.atDocumentMark || c.rest.head? == some '#' then some ⟨text, spacing.broken, c⟩
    else do
      let (w, rest) ← word inFlow c.rest
      let (text, spacing) := if w = [] then (text, spacing) else (text ++ spacing.text ++ w, .none)
      let c := c.skip w.length
      if rest.head?.any isSpaceOrBreak then
        let (spacing, c) ← spacing.scan indent c.rest.length c
        if !inFlow && (c.column : Int) < indent then return ⟨text, spacing.broken, c⟩
        scan inFlow indent fuel text spacing c
      else return ⟨text, spacing.broken, c⟩

end PlainScalar

end ChainMigration.Yaml
