import ChainMigration.Chain.Codec
import ChainMigration.Rlp.Item
import ChainMigration.Text.Blank

/-! # Logs

An event log in the order of its consensus encoding, built from the texts of its columns. The
written form of a text (blanks around it, its mark, the case of its digits, empty topic slots) does
not change the log. -/

namespace ChainMigration.Chain

/-- An event log: the address, the topics in order and the data. -/
structure CanonicalLog where
  address : Bytes
  topics : List Bytes
  data : Bytes
deriving DecidableEq

namespace CanonicalLog

/-- Reads the address column. -/
def readAddress (text : String) : Except CodecError Bytes :=
  match Text.readHexOf? 20 (Text.trimmed text.toList) with
  | some address => .ok address
  | none => .error (.hex .address text)

/-- Reads the topics that are present and not blank, in slot order. -/
def readTopics : List (Option String) → Except CodecError (List Bytes)
  | [] => .ok []
  | none :: slots => readTopics slots
  | some text :: slots =>
    let digits := Text.trimmed text.toList
    if digits = [] then readTopics slots
    else match Text.readHexOf? 32 digits with
      | some topic => return topic :: (← readTopics slots)
      | none => .error (.hex .topic (.ofList digits))

/-- The log that the columns of a row describe. -/
def ofColumns (address : String) (topics : List (Option String)) (data : Bytes) :
    Except CodecError CanonicalLog := do
  let address ← readAddress address
  let topics ← readTopics topics
  return ⟨address, topics, data⟩

/-- The encoded log: its address, its list of topics and its data. -/
def encode (log : CanonicalLog) : Bytes :=
  Rlp.encodeList [Rlp.encodeString log.address, Rlp.encodeList (log.topics.map Rlp.encodeString),
    Rlp.encodeString log.data]

end CanonicalLog

end ChainMigration.Chain
