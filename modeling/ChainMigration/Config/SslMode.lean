import ChainMigration.Error

/-! # Encryption of connections

Whether a connection is encrypted and what of the server's certificate is checked. -/

namespace ChainMigration

/-- How a connection is encrypted. -/
inductive SslMode
  | disable
  /-- Encrypted; any certificate will do. -/
  | require
  | verifyCa
  | verifyFull
deriving DecidableEq

namespace SslMode

/-- Reads a mode, whatever its case; an empty text disables encryption. -/
def ofText (text : String) : Except ConfigError SslMode :=
  match Text.lowercase text with
  | "disable" | "" => .ok disable
  | "require" => .ok require
  | "verify-ca" => .ok verifyCa
  | "verify-full" => .ok verifyFull
  | other => .error (.sslMode other)

/-- The name of a mode. -/
def name : SslMode → String
  | disable => "Disable"
  | require => "Require"
  | verifyCa => "VerifyCa"
  | verifyFull => "VerifyFull"

/-- The connection is encrypted. -/
def encrypted (m : SslMode) : Bool := m != disable

end SslMode

end ChainMigration
