import ChainMigration.Proofs.Except
import ChainMigration.Proofs.PageTransactions
import ChainMigration.Database.Reader

/-! # What work with a connection executes

Each piece of work executes statements of its own form and no others, whatever the database answers
and wherever it ends (`Connection.Only`). A connection is there exactly if its settings can be read,
its login is accepted and it works (`Connection.result_connect_eq_ok`). -/

namespace ChainMigration

/-- The statement takes part in copying through a foreign table. -/
def Statement.Copies (name : String) : Statement → Prop
  | .begin | .commit => True
  | .copyPage name' _ => name' = name
  | _ => False

namespace Connection

variable {ε ε' α β : Type} {c : Connection} {w : DatabaseWork ε α} {f : α → DatabaseWork ε β}
  {P : Statement → Prop}

/-- Whatever the work comes to, it executes no other statements through the connection. -/
def Only (c : Connection) (w : DatabaseWork ε α) (P : Statement → Prop) : Prop :=
  ∃ answer done, c.Does w answer done ∧ ∀ s ∈ done, P s

namespace Only

theorem of_silent {answer : Except ε α} (h : c.Does w answer []) : c.Only w P :=
  ⟨answer, [], h, List.forall_mem_nil _⟩

theorem bind (hw : c.Only w P) (hf : ∀ a, c.Only (f a) P) : c.Only (w >>= f) P := by
  obtain ⟨answer, done, hdoes, hdone⟩ := hw
  cases answer with
  | error reason => exact ⟨_, _, hdoes.bind_error, hdone⟩
  | ok a =>
    obtain ⟨answer', more, hmore, hall⟩ := hf a
    exact ⟨_, _, hdoes.bind hmore, List.forall_mem_append.mpr ⟨hdone, hall⟩⟩

theorem mapError (hw : c.Only w P) (g : ε → ε') : c.Only (w.mapError g) P := by
  obtain ⟨answer, done, hdoes, hdone⟩ := hw
  exact ⟨_, _, hdoes.mapError g, hdone⟩

theorem statements (hw : c.Only w P) :
    ∀ x ∈ w.statements, x.database = c.database ∧ P x.statement := by
  obtain ⟨answer, done, hdoes, hdone⟩ := hw
  intro x hx
  rw [DatabaseWork.statements, hdoes [], List.nil_append] at hx
  obtain ⟨s, hs, rfl⟩ := List.mem_map.mp hx
  exact ⟨rfl, hdone s hs⟩

end Only

theorem only_get (c : Connection) (P : Statement → Prop) : c.Only c.get P :=
  .of_silent c.does_get

theorem does_ofExcept (c : Connection) (answer : Except ε α) :
    c.Does (MonadExcept.ofExcept answer : DatabaseWork ε α) answer [] := by
  cases answer with
  | ok a => exact c.does_pure a
  | error reason => exact c.does_throw reason

theorem only_ofExcept (c : Connection) (answer : Except ε α) (P : Statement → Prop) :
    c.Only (MonadExcept.ofExcept answer : DatabaseWork ε α) P :=
  .of_silent (c.does_ofExcept answer)

theorem only_execute {s : Statement} (c : Connection) (hs : P s) : c.Only (c.execute s) P :=
  ⟨_, _, c.does_execute s, List.forall_mem_singleton.mpr hs⟩

theorem only_ping (c : Connection) (role : String) : c.Only (c.ping role) (· = .ping) :=
  have hping := c.only_execute (P := (· = .ping)) rfl
  .bind ((c.only_get _).mapError _) fun _ => hping.mapError _

theorem only_heightBounds (c : Connection) : c.Only c.heightBounds (· = .heightBounds) :=
  have hbounds := c.only_execute (P := (· = .heightBounds)) rfl
  .bind ((c.only_get _).mapError _) fun _ =>
    .bind (hbounds.mapError _) fun _ => c.only_ofExcept _ _

theorem only_readRows (c : Connection) (t : Table) (range : BlockRange) :
    c.Only (c.readRows t range) fun s => ∃ bounds, s = .read t bounds :=
  .bind ((c.only_get _).mapError _) fun _ => .bind (c.only_ofExcept _ _) fun bounds =>
    .bind ((c.only_execute ⟨bounds, rfl⟩).mapError _) fun _ => c.only_ofExcept _ _

theorem only_writeRows (c : Connection) (t : Table) (range : BlockRange) (new : NewRows) :
    c.Only (c.writeRows t range new) fun s => ∃ columns, s = .insert t columns := by
  unfold writeRows
  split
  · exact .of_silent (c.does_pure 0)
  · exact .bind ((c.only_get _).mapError _) fun _ => (c.only_execute ⟨_, rfl⟩).mapError _

theorem only_lastPage (c : Connection) (name : String) :
    c.Only (c.lastPage name) (· = .lastPlace name) := by
  have hplace := c.only_execute (P := (· = .lastPlace name)) rfl
  refine .bind ((c.only_get _).mapError _) fun _ => .bind (hplace.mapError _) fun place => ?_
  split
  · exact .of_silent (c.does_throw _)
  · split
    · exact .of_silent (c.does_pure _)
    · exact .of_silent (c.does_throw _)

theorem only_copyFrom (c : Connection) (name : String) (page count copied : Nat) :
    c.Only (c.copyFrom name page count copied) fun s => s.Copies name := by
  induction count generalizing page copied with
  | zero => exact .of_silent (c.does_pure copied)
  | succ count ih =>
    rw [copyFrom]
    have hpage : (Statement.copyPage name (.ofNat page)).Copies name := rfl
    split
    · exact .bind ((c.only_execute hpage).mapError _) fun blobs => ih _ _
    · exact .of_silent (c.does_throw _)

theorem only_copyPages (c : Connection) (name : String) (pages : BlockRange) :
    c.Only (c.copyPages name pages) fun s => s.Copies name := by
  rw [copyPages_eq]
  refine Only.mapError (.bind ((c.only_get _).mapError _) fun _ => ?_) _
  refine .bind ((c.only_execute trivial).mapError _) fun _ => ?_
  refine .bind (c.only_copyFrom name _ _ 0) fun copied => ?_
  exact .bind ((c.only_execute trivial).mapError _) fun _ => .of_silent (c.does_pure copied)

theorem statements_connect (server : Server) (db : DatabaseConfig) (role : String) :
    ∀ x ∈ (connect server db role).statements, x = ⟨db.database, .ping⟩ := by
  let c : Connection := { server, database := db.database }
  have honly : c.Only (connect server db role) (· = .ping) := by
    refine .bind (c.only_ofExcept _ _) fun mode => ?_
    dsimp only
    split
    · exact .of_silent (c.does_throw _)
    · exact .bind (c.only_ping role) fun _ => .of_silent (c.does_pure _)
  rintro ⟨database, s⟩ hx
  obtain ⟨rfl, rfl⟩ := honly.statements _ hx
  rfl

/-- The work comes to the answer, whatever it executes. -/
def Comes (c : Connection) (w : DatabaseWork ε α) (answer : Except ε α) : Prop :=
  ∃ done, c.Does w answer done

theorem Comes.bind {x : Except ε α} {g : α → Except ε β} (hw : c.Comes w x)
    (hf : ∀ a, c.Comes (f a) (g a)) : c.Comes (w >>= f) (x >>= g) := by
  obtain ⟨done, hdoes⟩ := hw
  cases x with
  | error reason => exact ⟨done, hdoes.bind_error⟩
  | ok a =>
    obtain ⟨more, hmore⟩ := hf a
    exact ⟨done ++ more, hdoes.bind hmore⟩

theorem Comes.result {answer : Except ε α} (h : c.Comes w answer) : w.result = answer := by
  obtain ⟨done, hdoes⟩ := h
  exact hdoes.result

theorem comes_ping (c : Connection) (role : String) (hc : c.closed = false) :
    c.Comes (c.ping role)
      (((c.server.execute c.database .ping).mapError .rejected).mapError .database) := by
  have hget := c.does_get
  rw [hc, if_neg Bool.false_ne_true] at hget
  exact ⟨_, (hget.mapError _).bind ((c.does_execute .ping).mapError _)⟩

/-- **A connection is there** exactly if the mode of encryption can be read, the login is accepted
and the connection works. -/
theorem result_connect_eq_ok {server : Server} {db : DatabaseConfig} {role : String} :
    (connect server db role).result = .ok c ↔ c = { server, database := db.database } ∧
      ∃ mode, SslMode.ofText db.sslMode = .ok mode ∧ server.login db mode.encrypted = .ok () ∧
        server.execute db.database .ping = .ok () := by
  let new : Connection := { server, database := db.database }
  have hworks : new.Comes (do new.ping role; return new : DatabaseWork MigrationError Connection)
      (do ((server.execute db.database .ping).mapError .rejected).mapError .database; return new) :=
    .bind (new.comes_ping role rfl) fun _ => ⟨[], new.does_pure new⟩
  have hresult : (connect server db role).result = (do
      let mode ← (SslMode.ofText db.sslMode).mapError MigrationError.config
      (server.login db mode.encrypted).mapError fun reason =>
        .pool (.connect reason) s!"testing {role} database connection"
      ((server.execute db.database .ping).mapError .rejected).mapError .database
      return new) := by
    refine Comes.result (c := new) (.bind ⟨[], new.does_ofExcept _⟩ fun mode => ?_)
    dsimp only
    cases server.login db mode.encrypted with
    | error reason => exact ⟨[], new.does_throw _⟩
    | ok u => exact hworks
  rw [hresult]
  simp only [bind_eq_ok, mapError_eq_ok, pure_eq_ok]
  constructor
  · rintro ⟨mode, hmode, ⟨⟩, hlogin, ⟨⟩, hping, rfl⟩
    exact ⟨rfl, mode, hmode, hlogin, mapError_eq_ok.mp (mapError_eq_ok.mp hping)⟩
  · rintro ⟨rfl, mode, hmode, hlogin, hping⟩
    exact ⟨mode, hmode, (), hlogin, (), mapError_eq_ok.mpr (mapError_eq_ok.mpr hping), rfl⟩

end Connection

end ChainMigration
