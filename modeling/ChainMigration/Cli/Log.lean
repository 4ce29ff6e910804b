import ChainMigration.Engine.Act
import ChainMigration.Files.Tree
import ChainMigration.Json.Pretty
import ChainMigration.Report.Time
import ChainMigration.Text.Lowercase

/-! # Logs

A program logs what it does, entry by entry. An entry is written if its level is at least that of
the log, as a line of text or as a JSON object. -/

namespace ChainMigration

/-- How much an entry of a log matters. -/
inductive LogLevel
  | trace
  | debug
  | info
  | warn
  | error
deriving DecidableEq

namespace LogLevel

/-- The place of a level among the others. -/
def rank : LogLevel → Nat
  | trace => 0
  | debug => 1
  | info => 2
  | warn => 3
  | error => 4

/-- The name of a level. -/
def name : LogLevel → String
  | trace => "TRACE"
  | debug => "DEBUG"
  | info => "INFO"
  | warn => "WARN"
  | error => "ERROR"

/-- The level of a verbosity, in any case of letters; an unknown verbosity stands for `info`. -/
def ofVerbosity (verbosity : String) : LogLevel :=
  match Text.lowercase verbosity with
  | "trace" => trace
  | "debug" => debug
  | "warn" | "warning" => warn
  | "error" | "fatal" | "panic" => error
  | _ => info

end LogLevel

/-- An entry of a log. -/
structure LogEntry where
  level : LogLevel
  text : String
deriving DecidableEq

/-- How and where entries are written. -/
structure Log where
  level : LogLevel
  json : Bool
  /-- The open file; without one, entries go to the standard error. -/
  place : Option Location

/-- The log writes an entry. -/
def Log.shows (log : Log) (entry : LogEntry) : Bool := log.level.rank ≤ entry.level.rank

/-- The line of an entry. -/
def Log.line (log : Log) (now : Timestamp) (entry : LogEntry) : String :=
  if log.json then
    "\x7b\"timestamp\":" ++ Json.quotedText now.text ++
      ",\"level\":" ++ Json.quotedText entry.level.name ++
      ",\"fields\":\x7b\"message\":" ++ Json.quotedText entry.text ++ "\x7d\x7d\n"
  else now.text ++ " " ++ entry.level.name ++ " " ++ entry.text ++ "\n"

/-- The entry of what an engine does. -/
def Act.entry : Act → LogEntry
  | .read t range => ⟨.debug, s!"{t}: reading {range}"⟩
  | .write t range rows true => ⟨.debug, s!"{t}: wrote {rows.rows.length} rows for {range}"⟩
  | .write t range _ false => ⟨.debug, s!"{t}: could not write {range}"⟩
  | .tell _ (.gap kind gap) => ⟨.warn, s!"{kind.name} gap {gap.text}"⟩
  | .tell _ (.failure reason) => ⟨.error, reason.message⟩
  | .exit t => ⟨.debug, s!"{t}: a worker exits"⟩
  | .finish t => ⟨.info, s!"{t}: all workers finished"⟩
  | .lookUp name => ⟨.debug, s!"{name}: looking for the last page"⟩
  | .copy name pages => ⟨.debug, s!"{name}: copying pages {pages}"⟩
  | .copyFailure _ reason => ⟨.error, reason.message⟩

end ChainMigration
