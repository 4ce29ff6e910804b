import ChainMigration.Text.LetterCase

/-! # Lowercase

The full lowercase form of a text: each character by its simple mapping, the dotted capital I as
two characters, and a capital sigma by its place in the word. -/

namespace ChainMigration.Text

/-- The run maps the character of this number. -/
def CaseRun.covers (run : CaseRun) (n : Nat) : Bool :=
  run.first ≤ n && n ≤ run.last && (n - run.first) % run.stride == 0

/-- The number lies in one of the inclusive runs. -/
def inRuns (runs : List (Nat × Nat)) (n : Nat) : Bool :=
  runs.any fun (first, last) => first ≤ n && n ≤ last

/-- The simple lowercase mapping of one character. -/
def lowercaseChar (c : Char) : Char :=
  match lowercaseRuns.find? (·.covers c.toNat) with
  | some run => .ofNat (c.toNat + run.offset).toNat
  | none => c

/-- The nearest character that is not skipped is a cased letter. -/
def casedNext : List Char → Bool
  | [] => false
  | c :: cs =>
    if inRuns caseIgnorableRuns c.toNat then casedNext cs else inRuns casedRuns c.toNat

/-- Lowercases one character, given what stands before it (nearest first) and after it. -/
def lowercaseAt (before : List Char) (c : Char) (after : List Char) : List Char :=
  if c.toNat = 0x3A3 then
    if casedNext before && !casedNext after then [.ofNat 0x3C2] else [.ofNat 0x3C3]
  else if c.toNat = 0x130 then ['i', .ofNat 0x307]
  else [lowercaseChar c]

/-- Lowercases the rest of a word, given what stands before it (nearest first). -/
def lowercaseFrom (before : List Char) : List Char → List Char
  | [] => []
  | c :: cs => lowercaseAt before c cs ++ lowercaseFrom (c :: before) cs

/-- The full lowercase form of a text. -/
def lowercase (s : String) : String := .ofList (lowercaseFrom [] s.toList)

end ChainMigration.Text
