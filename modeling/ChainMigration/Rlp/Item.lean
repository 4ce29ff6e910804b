import ChainMigration.Rlp.Header

/-! # Writing items

Strings and lists with the shortest header in front of their payload. -/

namespace ChainMigration.Rlp

/-- The header of a payload of the given length; `base` is the mark of an empty item. -/
def lengthHeader (base : Nat) (length : Nat) : Bytes :=
  if length < 56 then [.ofNat (base + length)]
  else .ofNat (base + 55 + (bigEndian length).length) :: bigEndian length

/-- A string of bytes as an item. -/
def encodeString (bs : Bytes) : Bytes :=
  match bs with
  | [b] => if b < 0x80 then [b] else [0x81, b]
  | bs => lengthHeader 0x80 bs.length ++ bs

/-- Items one after the other as a list. -/
def encodeList (items : List Bytes) : Bytes :=
  lengthHeader 0xc0 items.flatten.length ++ items.flatten

end ChainMigration.Rlp
