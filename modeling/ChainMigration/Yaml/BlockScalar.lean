import ChainMigration.Yaml.Cursor

/-! # Block scalars

Lines of text below a sign, all indented alike. Literal lines are kept; folded lines are joined by a
blank where neither of two lines starts with one. -/

namespace ChainMigration.Yaml.BlockScalar

/-- What happens to the line breaks after the last line. -/
inductive Chomping
  | strip
  | clip
  | keep
deriving DecidableEq

/-- The sign that sets the chomping. -/
def chomping? : List Char → Option Chomping
  | '+' :: _ => some .keep
  | '-' :: _ => some .strip
  | _ => none

/-- The digit that sets the indentation. -/
def indentation? : List Char → Option Nat
  | c :: _ => if c.isDigit then some (c.toNat - '0'.toNat) else none
  | [] => none

/-- Reads the signs after the first one, in either order. A zero is refused. -/
def header (c : Cursor) : Option (Chomping × Option Nat × Cursor) :=
  let read : Chomping × Option Nat × Cursor :=
    match chomping? c.rest, indentation? c.rest with
    | some chomping, _ =>
      match indentation? (c.rest.drop 1) with
      | some n => (chomping, some n, c.skip 2)
      | none => (chomping, none, c.skip 1)
    | none, some n =>
      match chomping? (c.rest.drop 1) with
      | some chomping => (chomping, some n, c.skip 2)
      | none => (.clip, some n, c.skip 1)
    | none, none => (.clip, none, c)
  if read.2.1 = some 0 then none else some read

/-- The empty lines in front: their breaks, the widest indentation seen and the place after them.
With an indentation set, blanks are passed up to it; otherwise all are. -/
def emptyLines (indent : Option Nat) :
    (fuel : Nat) → List Char → (widest : Nat) → Cursor → Option (List Char × Nat × Cursor)
  | 0, breaks, widest, c => some (breaks, widest, c)
  | fuel + 1, breaks, widest, c =>
    let blanks := (c.rest.takeWhile (· == ' ')).length
    let c := c.skip (match indent with
      | some n => min blanks (n - c.column)
      | none => blanks)
    let widest := max widest c.column
    let tabRefused := indent.all fun n => c.column < n
    match c.rest with
    | '\t' :: _ => if tabRefused then none else some (breaks, widest, c)
    | b :: _ =>
      if isBreak b then emptyLines indent fuel (breaks ++ [b]) widest c.skipBreak
      else some (breaks, widest, c)
    | [] => some (breaks, widest, c)

/-- What has been read: the text, the break after the last line, the breaks of the empty lines after
it, and whether the last line starts with a blank. -/
structure State where
  text : List Char
  lastBreak : List Char
  emptyBreaks : List Char
  leadingBlank : Bool
  cursor : Cursor

/-- Reads one line of text and the empty lines after it. -/
def line (literal : Bool) (indent : Nat) (s : State) : Option State := do
  let blank := s.cursor.rest.head?.any isSpace
  let joint :=
    if !literal && s.lastBreak == ['\n'] && !s.leadingBlank && !blank then
      (if s.emptyBreaks = [] then [' '] else [])
    else s.lastBreak
  let (content, c) := s.cursor.run (!isBreak ·)
  let lastBreak := (c.rest.take 1).filter isBreak
  let (breaks, _, c) ← emptyLines (some indent) (c.rest.length + 1) [] 0 c.skipBreak?
  return ⟨s.text ++ joint ++ s.emptyBreaks ++ content, lastBreak, breaks, blank, c⟩

/-- Reads lines while they are indented. -/
def lines (literal : Bool) (indent : Nat) : (fuel : Nat) → State → Option State
  | 0, s => some s
  | fuel + 1, s =>
    if s.cursor.column = indent ∧ s.cursor.rest ≠ [] then do
      lines literal indent fuel (← line literal indent s)
    else some s

/-- Reads a block scalar after its first sign, below a node indented by `parent`. -/
def scan (literal : Bool) (parent : Int) (c : Cursor) : Option (List Char × Cursor) := do
  let (chomping, hint, c) ← header c
  let c := (c.skipRun isSpace).skipComment
  if !endsLine c.rest then none
  let c := c.skipBreak?
  let given := hint.map fun n => (max parent 0).toNat + n
  let (breaks, widest, c) ← emptyLines given (c.rest.length + 1) [] 0 c
  let indent := given.getD (max widest (max (parent + 1) 1).toNat)
  let s ← lines literal indent (c.rest.length + 1) ⟨[], [], breaks, false, c⟩
  return (s.text ++ (if chomping = .strip then [] else s.lastBreak) ++
    (if chomping = .keep then s.emptyBreaks else []), s.cursor)

end ChainMigration.Yaml.BlockScalar
