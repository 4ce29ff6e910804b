import ChainMigration.Chain.Address
import ChainMigration.Chain.Codec

/-! # The beneficiary of a block

The third field of an encoded block header, after the hashes of the parent and of the uncles. -/

namespace ChainMigration.Chain

/-- The address of the beneficiary of an encoded block header. -/
def beneficiaryBytes (header : Bytes) : Except CodecError Bytes := reading do
  let (fields, _) ← Rlp.payload .list header
  let (_, fields) ← Rlp.fixed 32 fields
  let (_, fields) ← Rlp.fixed 32 fields
  let (address, _) ← Rlp.fixed 20 fields
  return address

/-- The beneficiary of an encoded block header, with its checksum. -/
def beneficiary (header : Bytes) : Except CodecError String := do
  return checksumText (← beneficiaryBytes header)

end ChainMigration.Chain
