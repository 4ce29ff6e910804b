import ChainMigration.Yaml.Node

/-! # Tokens

The signs, marks and scalars that a document is made of. Indentation shows as starts and ends of
blocks. -/

namespace ChainMigration.Yaml

/-- A token of a document. -/
inductive Token
  | version (major minor : Nat)
  | handle (name start : String)
  | documentStart
  | documentEnd
  | blockSequence
  | blockMapping
  | blockEnd
  | flowSequence
  | flowSequenceEnd
  | flowMapping
  | flowMappingEnd
  | blockEntry
  | flowEntry
  | key
  | value
  | alias (name : String)
  | anchor (name : String)
  | tag (handle suffix : String)
  | scalar (style : ScalarStyle) (text : String)
deriving DecidableEq

end ChainMigration.Yaml
