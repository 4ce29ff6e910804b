import ChainMigration.Text.Hex

/-! # Item headers

The header in front of an item of the recursive length encoding: whether the item is a list and how
long its payload is. A byte below 0x80 stands for itself and has no header. Only the shortest header
of a payload is accepted. -/

namespace ChainMigration.Rlp

/-- Why bytes are not a proper item of the wanted kind. -/
inductive RlpError
  | tooShort
  | leadingZero
  | overflow
  | singleByte
  | size
  | length
  | isString
  | isList
deriving DecidableEq

/-- The wording of an encoding error. -/
def RlpError.message : RlpError → String
  | .tooShort => "input too short"
  | .leadingZero => "leading zero"
  | .overflow => "overflow"
  | .singleByte => "non-canonical single byte"
  | .size => "non-canonical size"
  | .length => "unexpected length"
  | .isString => "unexpected string"
  | .isList => "unexpected list"

/-- The kind of an item. -/
inductive Kind
  | string
  | list
deriving DecidableEq

/-- The number whose bytes are given, highest first. -/
def ofBigEndian (bs : Bytes) : Nat := bs.foldl (fun n b => 256 * n + b.toNat) 0

/-- The bytes of a number, highest first, without leading zeros. -/
def bigEndian (n : Nat) : Bytes :=
  if n = 0 then [] else bigEndian (n / 256) ++ [.ofNat (n % 256)]
termination_by n
decreasing_by omega

/-- An item header: the kind, the payload length and the bytes from the payload on. -/
structure Header where
  kind : Kind
  payloadLength : Nat
  rest : Bytes
deriving DecidableEq

/-- Reads the length bytes of a long header. -/
def readLong (kind : Kind) (count : Nat) (bs : Bytes) : Except RlpError Header :=
  if bs.length < count then .error .tooShort
  else if bs.head? = some 0 then .error .leadingZero
  else if ofBigEndian (bs.take count) < 56 then .error .size
  else .ok ⟨kind, ofBigEndian (bs.take count), bs.drop count⟩

/-- Reads the header, not yet looking whether the payload is there. -/
def readHeader : Bytes → Except RlpError Header
  | [] => .error .tooShort
  | b :: bs =>
    if b < 0x80 then .ok ⟨.string, 1, b :: bs⟩
    else if b < 0xb8 then
      if b = 0x81 then
        match bs with
        | [] => .error .tooShort
        | c :: _ => if c < 0x80 then .error .singleByte else .ok ⟨.string, 1, bs⟩
      else .ok ⟨.string, b.toNat - 0x80, bs⟩
    else if b < 0xc0 then readLong .string (b.toNat - 0xb7) bs
    else if b < 0xf8 then .ok ⟨.list, b.toNat - 0xc0, bs⟩
    else readLong .list (b.toNat - 0xf7) bs

/-- Reads the header of an item that is there as a whole. -/
def Header.decode (bs : Bytes) : Except RlpError Header := do
  let header ← readHeader bs
  if header.rest.length < header.payloadLength then .error .tooShort else .ok header

/-- The payload of the next item, which must be of the given kind, and what follows the item. -/
def payload (kind : Kind) (bs : Bytes) : Except RlpError (Bytes × Bytes) := do
  let header ← Header.decode bs
  match header.kind, kind with
  | .string, .list => .error .isString
  | .list, .string => .error .isList
  | _, _ => .ok (header.rest.take header.payloadLength, header.rest.drop header.payloadLength)

/-- What follows the next item, whatever its kind. -/
def skipItem (bs : Bytes) : Except RlpError Bytes := do
  let header ← Header.decode bs
  return header.rest.drop header.payloadLength

/-- What follows the next `count` items. -/
def skipItems : (count : Nat) → Bytes → Except RlpError Bytes
  | 0, bs => .ok bs
  | count + 1, bs => do skipItems count (← skipItem bs)

/-- A string of exactly `count` bytes, and what follows it. -/
def fixed (count : Nat) (bs : Bytes) : Except RlpError (Bytes × Bytes) := do
  let (content, rest) ← payload .string bs
  if content.length = count then .ok (content, rest) else .error .length

/-- A number of at most 256 bits without leading zeros, and what follows it. -/
def number (bs : Bytes) : Except RlpError (Nat × Bytes) := do
  let (content, rest) ← payload .string bs
  if content.head? = some 0 then .error .leadingZero
  else if content.length ≤ 32 then .ok (ofBigEndian content, rest)
  else .error .overflow

end ChainMigration.Rlp
