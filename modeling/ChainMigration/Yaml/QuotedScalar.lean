import ChainMigration.Text.Hex
import ChainMigration.Yaml.Spacing

/-! # Quoted scalars

Text between single quotes, where a quote is written twice, and text between double quotes, where a
backslash starts an escape. Line breaks are folded in both. -/

namespace ChainMigration.Yaml.QuotedScalar

/-- The character that a one-letter escape stands for. -/
def simpleEscape? : Char → Option Char
  | '0' => some '\x00'
  | 'a' => some '\x07'
  | 'b' => some '\x08'
  | 't' => some '\t'
  | '\t' => some '\t'
  | 'n' => some '\n'
  | 'v' => some '\x0b'
  | 'f' => some '\x0c'
  | 'r' => some '\r'
  | 'e' => some '\x1b'
  | ' ' => some ' '
  | '\x22' => some '\x22'
  | '/' => some '/'
  | '\\' => some '\\'
  | 'N' => some (.ofNat 0x85)
  | '_' => some (.ofNat 0xA0)
  | 'L' => some (.ofNat 0x2028)
  | 'P' => some (.ofNat 0x2029)
  | _ => none

/-- How many digits follow the letter of a numeric escape. -/
def escapeDigits? : Char → Option Nat
  | 'x' => some 2
  | 'u' => some 4
  | 'U' => some 8
  | _ => none

/-- The character of a number in hexadecimal digits. -/
def charOfHex? (digits : List Char) : Option Char := do
  let values ← digits.mapM Text.hexValue?
  let n := values.foldl (fun n v => 16 * n + v) 0
  if n.isValidChar then some (.ofNat n) else none

/-- The characters up to the next blank, break, quote or end, with what follows them. The flag tells
that an escaped line break was passed at the end. -/
def word (single : Bool) : (fuel : Nat) → Cursor → Option (List Char × Bool × Cursor)
  | 0, c => some ([], false, c)
  | fuel + 1, c =>
    let continueWith (d : Char) (c : Cursor) := do
      let (w, broken, c) ← word single fuel c
      return (d :: w, broken, c)
    match c.rest with
    | [] => some ([], false, c)
    | d :: ds =>
      if isSpaceOrBreak d then some ([], false, c)
      else if single then
        if d = '\'' then
          if ds.head? = some '\'' then continueWith '\'' (c.skip 2) else some ([], false, c)
        else continueWith d (c.skip 1)
      else if d = '\x22' then some ([], false, c)
      else if d = '\\' then
        match ds with
        | [] => none
        | e :: es =>
          if isBreak e then some ([], true, (c.skip 1).skipBreak)
          else match simpleEscape? e, escapeDigits? e with
            | some f, _ => continueWith f (c.skip 2)
            | none, some count => do
              if es.length < count then none
              continueWith (← charOfHex? (es.take count)) (c.skip (2 + count))
            | none, none => none
      else continueWith d (c.skip 1)

/-- Reads words and the spacing between them up to the closing quote. -/
def scan (single : Bool) : (fuel : Nat) → List Char → Cursor → Option (List Char × Cursor)
  | 0, _, _ => none
  | fuel + 1, text, c =>
    if c.atDocumentMark then none
    else do
      let (w, broken, c) ← word single (c.rest.length + 1) c
      match c.rest with
      | [] => none
      | d :: _ =>
        if !broken && !isSpaceOrBreak d then return (text ++ w, c.skip 1)
        let (spacing, c) ← Spacing.scan 0 c.rest.length { Spacing.none with broken := broken } c
        scan single fuel (text ++ w ++ spacing.text) c

end ChainMigration.Yaml.QuotedScalar
