import ChainMigration.Rlp.Header

/-! # Faults of chain data

Why stored chain data cannot be read. -/

namespace ChainMigration.Chain

/-- A column of a log that holds hexadecimal text. -/
inductive HexField
  | address
  | topic
deriving DecidableEq

/-- The name of a hexadecimal column. -/
def HexField.name : HexField → String
  | .address => "address"
  | .topic => "topic"

/-- Why stored chain data cannot be read. -/
inductive CodecError
  | rlp (reason : Rlp.RlpError)
  | hex (field : HexField) (value : String)
  | transactionType (type : UInt8)
  | empty
deriving DecidableEq

/-- The wording of a fault in chain data. -/
def CodecError.message : CodecError → String
  | .rlp reason => s!"rlp: {reason.message}"
  | .hex field value => s!"invalid hex field {field.name}: {value}"
  | .transactionType type => s!"unsupported transaction type 0x{Text.hex [type]}"
  | .empty => "empty payload"

/-- Takes a step of item reading. -/
def reading {α : Type} (step : Except Rlp.RlpError α) : Except CodecError α :=
  step.mapError .rlp

end ChainMigration.Chain
