import ChainMigration.Text.Hex

/-! # JSON documents

JSON values and their text with one entry to a line, indented by two blanks for each level. -/

namespace ChainMigration

/-- A JSON value; numbers are kept as their text. -/
inductive Json
  | number (text : String)
  | string (s : String)
  | array (items : List Json)
  | object (entries : List (String × Json))

namespace Json

/-- A whole number. -/
def ofNat (n : Nat) : Json := number (toString n)

/-- A character as it stands in a JSON string. -/
def escapedChar (c : Char) : String :=
  match c with
  | '"' => "\\\""
  | '\\' => "\\\\"
  | '\n' => "\\n"
  | '\r' => "\\r"
  | '\t' => "\\t"
  | c =>
    if c.toNat = 8 then "\\b"
    else if c.toNat = 12 then "\\f"
    else if c.toNat < 32 then "\\u00" ++ Text.hex [c.toNat.toUInt8]
    else c.toString

/-- A text between its quotes. -/
def quotedText (s : String) : String := "\"" ++ .join (s.toList.map escapedChar) ++ "\""

/-- The blanks in front of an entry. -/
def indentation (level : Nat) : String := .ofList (.replicate (2 * level) ' ')

/-- Entries between brackets, one to a line. -/
def bracketed (opening closing : String) (level : Nat) (entries : List String) : String :=
  if entries.isEmpty then opening ++ closing
  else
    opening ++ "\n" ++ indentation (level + 1) ++
      (",\n" ++ indentation (level + 1)).intercalate entries ++
      "\n" ++ indentation level ++ closing

/-- The text of a value at a level of nesting. -/
def render (level : Nat) : Json → String
  | number text => text
  | string s => quotedText s
  | array items => bracketed "[" "]" level (renderItems (level + 1) items)
  | object entries => bracketed "\x7b" "\x7d" level (renderEntries (level + 1) entries)
where
  /-- The texts of the items of an array. -/
  renderItems (level : Nat) : List Json → List String
    | [] => []
    | item :: items => render level item :: renderItems level items
  /-- The texts of the entries of an object. -/
  renderEntries (level : Nat) : List (String × Json) → List String
    | [] => []
    | (key, value) :: entries =>
      (quotedText key ++ ": " ++ render level value) :: renderEntries level entries

/-- The text of a value. -/
def pretty (j : Json) : String := j.render 0

end Json

end ChainMigration
