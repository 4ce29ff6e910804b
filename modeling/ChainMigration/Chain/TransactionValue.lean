import ChainMigration.Chain.Codec

/-! # The value of a transaction

The amount that an encoded transaction transfers. An untyped transaction is a list; a typed one is
its type followed by a list. The value follows four to six fields that depend on the type. -/

namespace ChainMigration.Chain

/-- How many fields stand before the value in a typed transaction. -/
def fieldsBeforeValue (type : UInt8) : Option Nat :=
  if type = 1 then some 5
  else if type = 2 ∨ type = 3 then some 6
  else none

/-- The number behind `skip` fields of an encoded list. -/
def numberAfter (skip : Nat) (list : Bytes) : Except CodecError Nat := reading do
  let (fields, _) ← Rlp.payload .list list
  let (value, _) ← Rlp.number (← Rlp.skipItems skip fields)
  return value

/-- The amount that an encoded transaction transfers. -/
def transactionValue : Bytes → Except CodecError Nat
  | [] => .error .empty
  | first :: rest =>
    if 0xc0 ≤ first then numberAfter 4 (first :: rest)
    else match fieldsBeforeValue first with
      | some skip => numberAfter skip rest
      | none => .error (.transactionType first)

end ChainMigration.Chain
