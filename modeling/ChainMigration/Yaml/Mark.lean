import ChainMigration.Text.Hex
import ChainMigration.Yaml.Cursor
import ChainMigration.Yaml.Token

/-! # Directives, anchors and tags

The marks that stand in front of documents and nodes. -/

namespace ChainMigration.Yaml.Mark

/-- A character that may follow the name of an anchor directly. -/
def endsAnchor : List Char → Bool
  | [] => true
  | c :: _ => isSpaceOrBreak c || ['?', ':', ',', ']', '}', '%', '@', '\x60'].contains c

/-- Reads the name of an anchor or an alias after its sign. -/
def anchorName (c : Cursor) : Option (String × Cursor) :=
  let (name, c) := c.run isNameChar
  if name = [] ∨ !endsAnchor c.rest then none else some (.ofList name, c)

/-- The character may stand in a tag; some only in a directive or between angles. -/
def isTagChar (wide : Bool) (c : Char) : Bool :=
  isNameChar c || ";/?:@&=+$.!~*\x27()".toList.contains c || (wide && ",[]".toList.contains c)

/-- Reads one byte that is written as a percent sign and two digits. -/
def escapedByte : List Char → Option (Nat × List Char)
  | '%' :: a :: b :: cs => do return ((← Text.hexValue? a) * 16 + (← Text.hexValue? b), cs)
  | _ => none

/-- Reads further bytes of a character, each of which must go on with it. -/
def escapedRest : (count : Nat) → Nat → List Char → Option (Nat × List Char)
  | 0, n, cs => some (n, cs)
  | count + 1, n, cs => do
    let (b, cs) ← escapedByte cs
    if b / 64 = 2 then escapedRest count (n * 64 + b % 64) cs else none

/-- Reads a character that is written as the bytes of its encoding. -/
def escapedChar (cs : List Char) : Option (Char × List Char) := do
  let (b, rest) ← escapedByte cs
  let (n, rest) ←
    if b < 0x80 then some (b, rest)
    else if b / 32 = 6 then escapedRest 1 (b % 32) rest
    else if b / 16 = 14 then escapedRest 2 (b % 16) rest
    else if b / 8 = 30 then escapedRest 3 (b % 8) rest
    else none
  return (.ofNat n, rest)

/-- Reads the characters of a tag. -/
def tagChars (wide : Bool) : (fuel : Nat) → Cursor → Option (List Char × Cursor)
  | 0, c => some ([], c)
  | fuel + 1, c =>
    match c.rest with
    | '%' :: _ => do
      let (d, rest) ← escapedChar c.rest
      let (ds, c) ← tagChars wide fuel (c.skip (c.rest.length - rest.length))
      return (d :: ds, c)
    | d :: _ =>
      if isTagChar wide d then do
        let (ds, c) ← tagChars wide fuel (c.skip 1)
        return (d :: ds, c)
      else some ([], c)
    | [] => some ([], c)

/-- Reads the handle of a tag: an exclamation mark, a name and mostly another exclamation mark. A
directive does not leave the second mark out unless the handle is a single mark. -/
def tagHandle (directive : Bool) (c : Cursor) : Option (List Char × Cursor) :=
  match c.rest with
  | '!' :: _ =>
    let (name, c) := (c.skip 1).run isNameChar
    match c.rest with
    | '!' :: _ => some ('!' :: name ++ ['!'], c.skip 1)
    | _ => if directive && name != [] then none else some ('!' :: name, c)
  | _ => none

/-- A tag must be followed by a blank, a break or, within brackets, a comma. -/
def endsTag (inFlow : Bool) (cs : List Char) : Bool :=
  endsWord cs || (inFlow && cs.head? == some ',')

/-- Reads a tag: written out between angles, with a handle, or on its own. -/
def tag (inFlow : Bool) (c : Cursor) : Option (Token × Cursor) := do
  let (handle, suffix, c) ←
    if c.rest.take 2 = ['!', '<'] then do
      let c := c.skip 2
      let (suffix, c) ← tagChars true c.rest.length c
      if suffix = [] ∨ c.rest.head? ≠ some '>' then none
      pure ([], suffix, c.skip 1)
    else do
      let (handle, c) ← tagHandle false c
      let (more, c) ← tagChars false c.rest.length c
      if 2 ≤ handle.length ∧ handle.getLast? = some '!' then
        if more = [] then none
        pure (handle, more, c)
      else
        let suffix := handle.drop 1 ++ more
        pure (if suffix = [] then ([], ['!'], c) else (['!'], suffix, c))
  if endsTag inFlow c.rest then return (.tag (.ofList handle) (.ofList suffix), c) else none

/-- Reads a number of a version: at most nine digits. -/
def versionNumber (c : Cursor) : Option (Nat × Cursor) :=
  let (digits, c) := c.run Char.isDigit
  if digits = [] ∨ 9 < digits.length then none
  else some (digits.foldl (fun n d => 10 * n + (d.toNat - '0'.toNat)) 0, c)

/-- Reads the content of a directive of the given name. -/
def directiveContent (name : List Char) (c : Cursor) : Option (Token × Cursor) := do
  let c := c.skipRun isSpace
  if name = "YAML".toList then
    let (major, c) ← versionNumber c
    if c.rest.head? ≠ some '.' then none
    let (minor, c) ← versionNumber (c.skip 1)
    return (.version major minor, c)
  else if name = "TAG".toList then
    let (handle, c) ← tagHandle true c
    if !c.rest.head?.any isSpace then none
    let c := c.skipRun isSpace
    let (start, c) ← tagChars true c.rest.length c
    if start = [] ∨ !endsWord c.rest then none
    return (.handle (.ofList handle) (.ofList start), c)
  else none

/-- Reads a directive after its sign, with the rest of its line. -/
def directive (c : Cursor) : Option (Token × Cursor) := do
  let (name, c) := c.run isNameChar
  if name = [] ∨ !endsWord c.rest then none
  let (token, c) ← directiveContent name c
  let c := (c.skipRun isSpace).skipComment
  if endsLine c.rest then return (token, c.skipBreak?) else none

end ChainMigration.Yaml.Mark
