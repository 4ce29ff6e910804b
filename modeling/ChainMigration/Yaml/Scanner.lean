import ChainMigration.Yaml.BlockScalar
import ChainMigration.Yaml.Mark
import ChainMigration.Yaml.PlainScalar
import ChainMigration.Yaml.QuotedScalar

/-! # Cutting a document into tokens

A key is recognised only by the colon after it. So where a key may begin, the place is kept, and the
tokens that announce a key and its mapping are put there once the colon comes. Such a key lies
within one line and is not too long; where nothing but a key can stand, the colon must come. -/

namespace ChainMigration.Yaml

/-- A place where a key may begin: the number of the next token there, the place in the text and
whether nothing but a key can stand there. -/
structure KeyPlace where
  token : Nat
  line : Nat
  column : Nat
  index : Nat
  required : Bool

/-- The state between two tokens: the tokens so far (latest first), the indentations of the open
blocks (innermost first, `-1` outside of all), whether a key may begin here, and the place of a
possible key for each open bracket (innermost first) and outside of all brackets. -/
structure Scanner where
  cursor : Cursor
  tokens : List Token
  indents : List Int
  keyAllowed : Bool
  key : Option KeyPlace
  outerKeys : List (Option KeyPlace)

namespace Scanner

/-- The start of a document. -/
def start (cs : List Char) : Scanner := ⟨.start cs, [], [], true, none, []⟩

/-- The indentation of the innermost open block. -/
def indent (s : Scanner) : Int := s.indents.headD (-1)

/-- The place lies within brackets. -/
def inFlow (s : Scanner) : Bool := !s.outerKeys.isEmpty

/-- Adds a token. -/
def push (s : Scanner) (t : Token) : Scanner := { s with tokens := t :: s.tokens }

/-- Puts a token before the token of the given number. -/
def insert (s : Scanner) (number : Nat) (t : Token) : Scanner :=
  let (later, earlier) := s.tokens.splitAt (s.tokens.length - number)
  { s with tokens := later ++ t :: earlier }

/-- Passes so many characters. -/
def skip (s : Scanner) (count : Nat) : Scanner := { s with cursor := s.cursor.skip count }

/-- Passes blanks, comments and line breaks. A tab may not stand where a key may begin. -/
def skipToToken : (fuel : Nat) → Scanner → Scanner
  | 0, s => s
  | fuel + 1, s =>
    let atStart := s.cursor.index == 0 && s.cursor.rest.head? == some byteOrderMark
    let c := if atStart then s.cursor.skip 1 else s.cursor
    let c := c.skipRun fun d => d == ' ' || (d == '\t' && (s.inFlow || !s.keyAllowed))
    let c := c.skipComment
    if c.rest.head?.any isBreak then
      skipToToken fuel { s with cursor := c.skipBreak, keyAllowed := s.keyAllowed || !s.inFlow }
    else { s with cursor := c }

/-- Drops the place of a key that has become too long; a required key may not. -/
def freshKey (c : Cursor) : Option KeyPlace → Option (Option KeyPlace)
  | none => some none
  | some k =>
    if k.line < c.line ∨ k.index + 1024 < c.index then (if k.required then none else some none)
    else some (some k)

/-- Drops all places of keys that have become too long. -/
def dropStaleKeys (s : Scanner) : Option Scanner := do
  let key ← freshKey s.cursor s.key
  let outerKeys ← s.outerKeys.mapM (freshKey s.cursor)
  return { s with key, outerKeys }

/-- Gives up the innermost place of a key; a required key may not be given up. -/
def dropKey (s : Scanner) : Option Scanner :=
  if s.key.any (·.required) then none else some { s with key := none }

/-- Keeps the place as that of a possible key. -/
def saveKey (s : Scanner) : Option Scanner :=
  if s.keyAllowed then do
    let c := s.cursor
    let required := !s.inFlow && s.indent == (c.column : Int)
    let s ← s.dropKey
    return { s with key := some ⟨s.tokens.length, c.line, c.column, c.index, required⟩ }
  else some s

/-- Ends the open blocks that are indented further than the column. -/
def closeBlocks (column : Int) : List Int → List Token → List Int × List Token
  | [], tokens => ([], tokens)
  | i :: is, tokens =>
    if column < i then closeBlocks column is (.blockEnd :: tokens) else (i :: is, tokens)

/-- Ends the open blocks that are indented further than the column, outside of brackets. -/
def unroll (s : Scanner) (column : Int) : Scanner :=
  if s.inFlow then s
  else
    let (indents, tokens) := closeBlocks column s.indents s.tokens
    { s with indents, tokens }

/-- Opens a block at a column that is indented further than the innermost one, before the token of
the given number. -/
def roll (s : Scanner) (column number : Nat) (t : Token) : Scanner :=
  if s.inFlow ∨ (column : Int) ≤ s.indent then s
  else { s.insert number t with indents := column :: s.indents }

/-- Opens a block at the place reached. -/
def rollHere (s : Scanner) (t : Token) : Scanner := s.roll s.cursor.column s.tokens.length t

/-- A mark that begins or ends a document. -/
def documentMark (s : Scanner) (t : Token) : Option Scanner := do
  let s ← (s.unroll (-1)).dropKey
  return ({ s with keyAllowed := false }.skip 3).push t

/-- A directive. -/
def directive (s : Scanner) : Option Scanner := do
  let s ← (s.unroll (-1)).dropKey
  let (token, c) ← Mark.directive (s.cursor.skip 1)
  return { s with cursor := c, keyAllowed := false }.push token

/-- An opening bracket. -/
def flowStart (s : Scanner) (t : Token) : Option Scanner := do
  let s ← s.saveKey
  let opened := { s with outerKeys := s.key :: s.outerKeys, key := none, keyAllowed := true }
  return (opened.skip 1).push t

/-- A closing bracket. -/
def flowEnd (s : Scanner) (t : Token) : Option Scanner := do
  let s ← s.dropKey
  let closed := match s.outerKeys with
    | [] => s
    | key :: outerKeys => { s with key, outerKeys }
  return ({ closed with keyAllowed := false }.skip 1).push t

/-- A comma within brackets. -/
def flowEntry (s : Scanner) : Option Scanner := do
  let s ← s.dropKey
  return ({ s with keyAllowed := true }.skip 1).push .flowEntry

/-- A dash in front of an item. -/
def blockEntry (s : Scanner) : Option Scanner := do
  if !s.inFlow && !s.keyAllowed then none
  let s ← (s.rollHere .blockSequence).dropKey
  return ({ s with keyAllowed := true }.skip 1).push .blockEntry

/-- A question mark in front of a key. -/
def keySign (s : Scanner) : Option Scanner := do
  if !s.inFlow && !s.keyAllowed then none
  let s ← (s.rollHere .blockMapping).dropKey
  return ({ s with keyAllowed := !s.inFlow }.skip 1).push .key

/-- A colon in front of a value. -/
def valueSign (s : Scanner) : Option Scanner := do
  match s.key with
  | some k =>
    let s := (s.insert k.token .key).roll k.column k.token .blockMapping
    return ({ s with key := none, keyAllowed := false }.skip 1).push .value
  | none =>
    if !s.inFlow && !s.keyAllowed then none
    let s := s.rollHere .blockMapping
    return ({ s with keyAllowed := !s.inFlow }.skip 1).push .value

/-- An alias or an anchor. -/
def anchor (s : Scanner) (t : String → Token) : Option Scanner := do
  let s ← s.saveKey
  let (name, c) ← Mark.anchorName (s.cursor.skip 1)
  return { s with cursor := c, keyAllowed := false }.push (t name)

/-- A tag. -/
def tag (s : Scanner) : Option Scanner := do
  let s ← s.saveKey
  let (token, c) ← Mark.tag s.inFlow s.cursor
  return { s with cursor := c, keyAllowed := false }.push token

/-- A block scalar. -/
def blockScalar (s : Scanner) (literal : Bool) : Option Scanner := do
  let s ← s.dropKey
  let (text, c) ← BlockScalar.scan literal s.indent (s.cursor.skip 1)
  return { s with cursor := c, keyAllowed := true }.push
    (.scalar (if literal then .literal else .folded) (.ofList text))

/-- A quoted scalar. -/
def quotedScalar (s : Scanner) (single : Bool) : Option Scanner := do
  let s ← s.saveKey
  let (text, c) ← QuotedScalar.scan single (s.cursor.rest.length + 1) [] (s.cursor.skip 1)
  return { s with cursor := c, keyAllowed := false }.push
    (.scalar (if single then .singleQuoted else .doubleQuoted) (.ofList text))

/-- A plain scalar. -/
def plainScalar (s : Scanner) : Option Scanner := do
  let s ← s.saveKey
  let r ← PlainScalar.scan s.inFlow (s.indent + 1) (s.cursor.rest.length + 1) [] .none s.cursor
  return { s with cursor := r.cursor, keyAllowed := r.afterBreak }.push
    (.scalar .plain (.ofList r.text))

/-- A plain scalar may begin with the character, which is no blank, or with a dash, question mark or
colon that touches what follows; the last two not within brackets. -/
def beginsPlain (inFlow : Bool) (c : Char) (cs : List Char) : Bool :=
  !(isSpace c || "-?:,[]\x7b\x7d#&*!|>'\x22%@\x60".toList.contains c) ||
    (c == '-' && !cs.head?.any isSpace) ||
    (!inFlow && (c == '?' || c == ':') && !endsWord cs)

/-- The next token, which begins with the given character. -/
def token (s : Scanner) (c : Char) (cs : List Char) : Option Scanner :=
  let apart := endsWord cs
  if s.cursor.column = 0 ∧ c = '%' then s.directive
  else if s.cursor.atMark '-' then s.documentMark .documentStart
  else if s.cursor.atMark '.' then s.documentMark .documentEnd
  else if c = '[' then s.flowStart .flowSequence
  else if c = '{' then s.flowStart .flowMapping
  else if c = ']' then s.flowEnd .flowSequenceEnd
  else if c = '}' then s.flowEnd .flowMappingEnd
  else if c = ',' then s.flowEntry
  else if c = '-' ∧ apart then s.blockEntry
  else if c = '?' ∧ (s.inFlow ∨ apart) then s.keySign
  else if c = ':' ∧ (s.inFlow ∨ apart) then s.valueSign
  else if c = '*' then s.anchor .alias
  else if c = '&' then s.anchor .anchor
  else if c = '!' then s.tag
  else if c = '|' ∧ !s.inFlow then s.blockScalar true
  else if c = '>' ∧ !s.inFlow then s.blockScalar false
  else if c = '\'' then s.quotedScalar true
  else if c = '\x22' then s.quotedScalar false
  else if beginsPlain s.inFlow c cs then s.plainScalar
  else none

/-- Takes tokens up to the end of the document. -/
def run : (fuel : Nat) → Scanner → Option Scanner
  | 0, _ => none
  | fuel + 1, s => do
    let s ← (skipToToken (s.cursor.rest.length + 1) s).dropStaleKeys
    match s.cursor.rest with
    | [] => (s.unroll (-1)).dropKey
    | c :: cs => run fuel (← (s.unroll s.cursor.column).token c cs)

end Scanner

/-- The tokens of a text. -/
def Token.ofChars? (cs : List Char) : Option (List Token) := do
  let cs ← Source.ofChars? cs
  let s ← Scanner.run (cs.length + 1) (.start cs)
  return s.tokens.reverse

end ChainMigration.Yaml
