import ChainMigration.Text.Hex
import ChainMigration.Yaml.Node

/-! # What plain texts mean

A plain text may stand for nothing, a truth value or a number. Whole numbers are written in decimal
without leading zeros, or with a mark for base 16, 8 or 2; there may be a sign in front. -/

namespace ChainMigration.Yaml.Scalar

/-- The text stands for nothing. -/
def isNull (text : String) : Bool := ["null", "Null", "NULL", "~"].contains text

/-- The truth value that the text stands for. -/
def bool? (text : String) : Option Bool :=
  if ["true", "True", "TRUE"].contains text then some true
  else if ["false", "False", "FALSE"].contains text then some false
  else none

/-- The number that the digits stand for in a base. -/
def digits? (base : Nat) (cs : List Char) : Option Nat := do
  if cs = [] then none
  let values ← cs.mapM Text.hexValue?
  if values.all (· < base) then some (values.foldl (fun n v => base * n + v) 0) else none

/-- The text without a sign in front of it. -/
def unsigned : List Char → List Char
  | '+' :: cs => cs
  | '-' :: cs => cs
  | cs => cs

/-- More than one digit, the first one zero, with or without a sign: no number. -/
def isZeroPadded (cs : List Char) : Bool :=
  match unsigned cs with
  | '0' :: d :: ds => (d :: ds).all Char.isDigit
  | _ => false

/-- The whole number that a text without a sign stands for. -/
def magnitude? : List Char → Option Nat
  | '0' :: 'x' :: cs => digits? 16 cs
  | '0' :: 'o' :: cs => digits? 8 cs
  | '0' :: 'b' :: cs => digits? 2 cs
  | cs => if isZeroPadded cs then none else digits? 10 cs

/-- The whole number that a text stands for. -/
def int? : List Char → Option Int
  | '-' :: cs => (magnitude? cs).map (-Int.ofNat ·)
  | '+' :: cs => (magnitude? cs).map Int.ofNat
  | cs => (magnitude? cs).map Int.ofNat

/-- The text without a plus sign in front of it. -/
def unpositive : List Char → List Char
  | '+' :: cs => cs
  | cs => cs

/-- The natural number below a limit that a text stands for. It may have a plus sign, and no minus
sign even before a zero. -/
def nat? (limit : Nat) (cs : List Char) : Option Nat := do
  let n ← magnitude? (unpositive cs)
  if n < limit then some n else none

/-- The digits in front and what follows them. -/
def takeDigits (cs : List Char) : List Char × List Char := cs.span Char.isDigit

/-- The exponent that a text is, which may be absent. -/
def exponent? : List Char → Option Int
  | [] => some 0
  | e :: cs =>
    if e = 'e' ∨ e = 'E' then
      let size := (digits? 10 (unsigned cs)).map Int.ofNat
      if cs.head? = some '-' then size.map (-·) else size
    else none

/-- The digits and the power of ten of a number with a fraction or an exponent, without a sign. -/
def decimal? (cs : List Char) : Option (List Char × Int) := do
  let (whole, rest) := takeDigits cs
  let (fraction, rest) := match rest with
    | '.' :: rest => takeDigits rest
    | rest => ([], rest)
  if whole = [] ∧ fraction = [] then none
  return (whole ++ fraction, (← exponent? rest) - fraction.length)

/-- The number rounds to a finite double. -/
def isFinite (digits : List Char) (power : Int) : Bool :=
  let digits := digits.dropWhile (· == '0')
  let n := digits.foldl (fun n d => 10 * n + (d.toNat - '0'.toNat)) 0
  let bound := Nat.pow 2 1024 - Nat.pow 2 970
  if digits = [] ∨ digits.length + power ≤ 300 then true
  else if 320 < digits.length + power then false
  else if 0 ≤ power then n * Nat.pow 10 power.toNat < bound
  else n < bound * Nat.pow 10 power.natAbs

/-- The text is an infinity or no number. -/
def isSpecialFloat (text : String) : Bool :=
  [".inf", ".Inf", ".INF", "+.inf", "+.Inf", "+.INF", "-.inf", "-.Inf", "-.INF", ".nan", ".NaN",
    ".NAN"].contains text

/-- The text stands for a floating-point number. -/
def isFloat (text : String) : Bool :=
  isSpecialFloat text ||
    (decimal? (unsigned text.toList)).any fun (digits, power) => isFinite digits power

/-- The number fits 128 bits, with a sign or without one. -/
def isWide (n : Int) : Bool :=
  if n < 0 then n.natAbs ≤ Nat.pow 2 127 else n.natAbs < Nat.pow 2 128

/-- The text, if plain, stands for something other than itself or looks like a number. -/
def isTyped (text : String) : Bool :=
  let cs := text.toList
  text.isEmpty || isNull text || (bool? text).isSome ||
    (int? cs).any isWide || isZeroPadded cs || isFloat text

end ChainMigration.Yaml.Scalar
