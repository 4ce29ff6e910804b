import ChainMigration.Yaml.Scalar

/-! # Typed values of nodes

Reading texts, truth values, numbers, lists and records from nodes. A quoted scalar is always a
text, and a text may be any scalar. Where nothing is written, a list or a record is empty. -/

namespace ChainMigration.Yaml

/-- Reads a value from a node of a document. -/
abbrev Reader (α : Type) := Document → Node → Option α

namespace Reader

/-- The text of any scalar. -/
def text : Reader String := fun d n =>
  match d.resolve n with
  | some (.scalar _ _ text) => some text
  | _ => none

/-- The text of a scalar that may stand for another value: a plain one, or a literal one whose tag
names the kind of value. -/
def typedText (tag : String) : Reader String := fun d n =>
  match d.resolve n with
  | some (.scalar .plain _ text) => some text
  | some (.scalar .literal (some own) text) => if own = tag then some text else none
  | _ => none

/-- A truth value. -/
def bool : Reader Bool := fun d n => do
  Scalar.bool? (← typedText "tag:yaml.org,2002:bool" d n)

/-- A natural number below a limit. -/
def nat (limit : Nat) : Reader Nat := fun d n => do
  Scalar.nat? limit (← typedText "tag:yaml.org,2002:int" d n).toList

/-- A number of 64 bits. -/
def word : Reader UInt64 := fun d n => (nat UInt64.size d n).map .ofNat

/-- A value that may be left out by a null. -/
def optional {α : Type} (read : Reader α) : Reader (Option α) := fun d n =>
  match d.resolve n with
  | some (.scalar .plain (some tag) text) =>
    if tag = "tag:yaml.org,2002:null" then (if Scalar.isNull text then some none else none)
    else (read d n).map some
  | some (.scalar .plain none text) =>
    if text.isEmpty || Scalar.isNull text then some none else (read d n).map some
  | _ => (read d n).map some

/-- A list of values. -/
def list {α : Type} (read : Reader α) : Reader (List α) := fun d n =>
  match d.resolve n with
  | some (.sequence items) => items.mapM (read d)
  | some (.scalar .plain _ "") => some []
  | _ => none

/-- The known entries of a record. Others are passed over; a known one may not occur twice. -/
def entries (known : List String) : Reader (List (String × Node)) := fun d n =>
  match d.resolve n with
  | some (.mapping entries) => do
    let entries ← entries.mapM fun (key, value) => do return ((← text d key), value)
    let entries := entries.filter fun (key, _) => known.contains key
    if (entries.map (·.1)).Nodup then some entries else none
  | some (.scalar .plain _ "") => some []
  | _ => none

/-- The value of an entry that must be there. -/
def required {α : Type} (read : Reader α) (d : Document) (entries : List (String × Node))
    (key : String) : Option α := do
  read d (← entries.lookup key)

/-- The value of an entry, or the given one if it is not there. -/
def default {α : Type} (read : Reader α) (other : α) (d : Document)
    (entries : List (String × Node)) (key : String) : Option α :=
  match entries.lookup key with
  | some n => read d n
  | none => some other

end Reader

end ChainMigration.Yaml
