import ChainMigration.Digest.Keccak
import ChainMigration.Text.Base32

/-! # Blob keys

The key under which a blob is stored: the digest of its bytes with the mark and the length of
Keccak-256, in base 32 behind a fixed path. -/

namespace ChainMigration.Chain

/-- The digest of a blob with the mark and length of its kind of digest. -/
def multihash (data : Bytes) : Bytes := 0x1b :: 0x20 :: Digest.keccak256 data

/-- The key of a blob. -/
def blobKey (data : Bytes) : String := "/blocks/" ++ Text.base32 (multihash data)

end ChainMigration.Chain
