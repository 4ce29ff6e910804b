import ChainMigration.Text.Decimal

/-! # Options

The words of a command line as options. A long option follows two dashes and may have its value
behind an equals sign or in the next word; a short one is a letter behind one dash, with its value
in the same word or in the next. Two dashes alone end the options. The first fault decides the
error. -/

namespace ChainMigration

/-- What an option takes. -/
inductive OptionKind
  | flag
  | text
  /-- A text that is not empty. -/
  | path
  /-- A number of 64 bits. -/
  | number
  /-- Texts with commas between them; the option may be repeated. -/
  | texts
  /-- Nothing; the program explains itself and ends. -/
  | help
  /-- Nothing; the program tells its version and ends. -/
  | version
deriving DecidableEq

/-- An option that a command line may hold. -/
structure KnownOption where
  name : String
  letter : Option Char := none
  kind : OptionKind

/-- Why words are no command line. -/
inductive UsageError
  | unexpected (word : String)
  | missingValue (name : String)
  | badValue (name value : String)
  | repeated (name : String)
  /-- An option stands without another one that it needs. -/
  | alone (name needed : String)
  | noCommand
deriving DecidableEq

/-- The wording of a usage error. -/
def UsageError.message : UsageError → String
  | .unexpected word => "unexpected argument '" ++ word ++ "' found"
  | .missingValue name => "a value is required for '--" ++ name ++ "' but none was supplied"
  | .badValue name value => "invalid value '" ++ value ++ "' for '--" ++ name ++ "'"
  | .repeated name => "the argument '--" ++ name ++ "' cannot be used multiple times"
  | .alone _ needed => "the argument '--" ++ needed ++ "' is required"
  | .noCommand => "a command is required"

/-- Why a command line leads to no command. -/
inductive NoCommand
  | usage (reason : UsageError)
  | help
  | version
deriving DecidableEq

/-- The options that were given, with their values. -/
abbrev GivenOptions := List (String × String)

/-- A word of a command line. -/
inductive CommandWord
  | plain
  /-- Two dashes alone. -/
  | endOfOptions
  | long (name : String) (value : Option String)
  | short (letter : Char) (value : Option String)
deriving DecidableEq

/-- What stands before and behind the first equals sign. -/
def cutAtEquals : List Char → List Char × Option (List Char)
  | [] => ([], none)
  | '=' :: cs => ([], some cs)
  | c :: cs => ((c :: (cutAtEquals cs).1), (cutAtEquals cs).2)

/-- The value behind the letter of a short option; an equals sign between them is left out. -/
def attachedValue : List Char → Option String
  | [] => none
  | '=' :: cs => some (.ofList cs)
  | cs => some (.ofList cs)

/-- Takes a word apart. A dash alone is a plain word. -/
def CommandWord.ofText (word : String) : CommandWord :=
  match word.toList with
  | ['-', '-'] => endOfOptions
  | '-' :: '-' :: cs =>
    let (name, value) := cutAtEquals cs
    long (.ofList name) (value.map .ofList)
  | '-' :: c :: cs => short c (attachedValue cs)
  | _ => plain

/-- A word that cannot be the value of the option before it. -/
def looksLikeOption (word : String) : Bool :=
  match CommandWord.ofText word with
  | .plain => false
  | _ => true

/-- A kind of option takes a value. -/
def OptionKind.accepts : OptionKind → String → Bool
  | .path, value => value ≠ ""
  | .number, value => (Text.readWord value).isOk
  | _, _ => true

/-- What a command line with an option of a kind comes to at once. -/
def OptionKind.ends? : OptionKind → Option NoCommand
  | .help => some .help
  | .version => some .version
  | _ => none

namespace GivenOptions

/-- Adds an option. -/
def add (given : GivenOptions) (o : KnownOption) (value : String) : Except NoCommand GivenOptions :=
  if o.kind ≠ .texts && given.any (·.1 = o.name) then .error (.usage (.repeated o.name))
  else if o.kind.accepts value then .ok (given ++ [(o.name, value)])
  else .error (.usage (.badValue o.name value))

/-- The option is given. -/
def has (given : GivenOptions) (name : String) : Bool := given.any (·.1 = name)

/-- The value of an option. -/
def text? (given : GivenOptions) (name : String) : Option String :=
  (given.find? (·.1 = name)).map (·.2)

/-- The value of an option that takes a number. -/
def number? (given : GivenOptions) (name : String) : Option UInt64 :=
  (given.text? name).bind fun value => (Text.readWord value).toOption.map .ofNat

/-- The values of an option that takes texts. -/
def texts (given : GivenOptions) (name : String) : List String :=
  (given.filter (·.1 = name)).flatMap fun (_, value) =>
    (value.toList.splitOn ',').map .ofList

end GivenOptions

/-- The option that a word stands for. A long option that takes no value must not have one. -/
def CommandWord.option? (known : List KnownOption) :
    CommandWord → Option (KnownOption × Option String)
  | .long name value => do
    let o ← known.find? (·.name = name)
    if value.isSome && (o.kind = .flag || o.kind.ends?.isSome) then none else some (o, value)
  | .short letter value => (known.find? (·.letter = some letter)).map (·, value)
  | .plain | .endOfOptions => none

/-- Adds the option of a word, and tells whether the next word is its value. -/
def readOption (known : List KnownOption) (given : GivenOptions) (word : String)
    (next : Option String) : Except NoCommand (GivenOptions × Bool) :=
  match (CommandWord.ofText word).option? known with
  | none => .error (.usage (.unexpected word))
  | some (o, value) =>
    match o.kind.ends?, value, next with
    | some reason, _, _ => .error reason
    | none, some value, _ => (given.add o value).map (·, false)
    | none, none, next =>
      if o.kind = .flag then (given.add o "").map (·, false)
      else match next with
        | some value =>
          if looksLikeOption value then .error (.usage (.missingValue o.name))
          else (given.add o value).map (·, true)
        | none => .error (.usage (.missingValue o.name))

/-- Reads options up to the first plain word; what comes then is left. -/
def readOptions (known : List KnownOption) (given : GivenOptions) :
    List String → Except NoCommand (GivenOptions × List String)
  | [] => .ok (given, [])
  | word :: words =>
    match CommandWord.ofText word, words with
    | .plain, _ => .ok (given, word :: words)
    | .endOfOptions, [] => .ok (given, [])
    | .endOfOptions, next :: _ => .error (.usage (.unexpected next))
    | _, [] => (readOption known given word none).map fun (given, _) => (given, [])
    | _, next :: rest =>
      match readOption known given word (some next) with
      | .error reason => .error reason
      | .ok (given, true) => readOptions known given rest
      | .ok (given, false) => readOptions known given (next :: rest)

end ChainMigration
