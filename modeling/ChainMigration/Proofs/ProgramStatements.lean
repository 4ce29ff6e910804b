import ChainMigration.Cli.Program
import ChainMigration.Proofs.ConnectionStatements
import ChainMigration.Proofs.RunActs
import ChainMigration.Proofs.ValidConfig

/-! # What a program executes

Work of the program only adds to the statements that it has executed. `ProgramWork.Executes` tells
which statements work adds and what it comes to, and goes along its steps (`Executes.bind`). Part by
part, and for all interleavings that its runs go through, this gives what each command executes with
its configuration (`Program.Uses`). So every statement of a program is one of its command, with the
configuration that is loaded and the settings of the command line over it
(`Program.usedBy_of_executed`).

For the converse, a transfer with a configuration in order copies its first segment once it is
connected and its gap file is open (`Program.executed_of_transfer`), and what it executes the
program executes (`Program.executed_run_transfer`). -/

namespace ChainMigration

/-! ### Work of the program -/

namespace ProgramWork

variable {α β : Type} {around : Surroundings} {w : ProgramWork α} {f : α → ProgramWork β}
  {P : Executed → Prop} {Q : α → Prop} {R : β → Prop}

/-- **What work executes and comes to.** What the program has executed before stays, the statements
that come on top all satisfy the first property, and a result satisfies the second one. -/
def ExecutesFrom (around : Surroundings) (s : ProgramState) (w : ProgramWork α)
    (P : Executed → Prop) (Q : α → Prop) : Prop :=
  ∃ more, ((w.run around).run.run s).2.executed = s.executed ++ more ∧ (∀ x ∈ more, P x) ∧
    ∀ a, ((w.run around).run.run s).1 = .ok a → Q a

/-- What work executes and comes to, whatever the program has done before. -/
def Executes (around : Surroundings) (w : ProgramWork α) (P : Executed → Prop) (Q : α → Prop) :
    Prop :=
  ∀ s, ExecutesFrom around s w P Q

theorem executes_pure {a : α} (ha : Q a) : Executes around (pure a) P Q := fun _ =>
  ⟨[], (List.append_nil _).symm, List.forall_mem_nil _, by rintro _ ⟨⟩; exact ha⟩

theorem executes_throw (reason : MigrationError) : Executes around (throw reason) P Q := fun _ =>
  ⟨[], (List.append_nil _).symm, List.forall_mem_nil _, nofun⟩

theorem executes_ofExcept (x : Except MigrationError α) :
    Executes around (MonadExcept.ofExcept x) P fun a => x = .ok a := by
  cases x with
  | ok a => exact executes_pure rfl
  | error reason => exact executes_throw reason

theorem executes_unless {b : Bool} {reason : MigrationError} {w : PUnit → ProgramWork α}
    (hw : Executes around (w ⟨⟩) P Q) :
    Executes around (if b = true then throw reason >>= w else w ⟨⟩) P Q := by
  cases b with
  | false => exact hw
  | true => exact fun _ => ⟨[], (List.append_nil _).symm, List.forall_mem_nil _, nofun⟩

theorem executes_read : Executes around read P (· = around) := fun _ =>
  ⟨[], (List.append_nil _).symm, List.forall_mem_nil _, by rintro _ ⟨⟩; rfl⟩

theorem executesFrom_get_bind {s : ProgramState} {f : ProgramState → ProgramWork β}
    (h : ExecutesFrom around s (f s) P R) : ExecutesFrom around s (get >>= f) P R := h

theorem executesFrom_read_bind {s : ProgramState} {f : Surroundings → ProgramWork β}
    (h : ExecutesFrom around s (f around) P R) : ExecutesFrom around s (read >>= f) P R := h

theorem executesFrom_set {s s' : ProgramState} (h : s'.executed = s.executed) :
    ExecutesFrom around s (set s') P fun _ => True :=
  ⟨[], h.trans (List.append_nil _).symm, List.forall_mem_nil _, fun _ _ => trivial⟩

theorem executes_modify {g : ProgramState → ProgramState} (h : ∀ s, (g s).executed = s.executed) :
    Executes around (modify g) P fun _ => True := fun s =>
  ⟨[], (h s).trans (List.append_nil _).symm, List.forall_mem_nil _, fun _ _ => trivial⟩

theorem executes_add {done : List Executed} (h : ∀ x ∈ done, P x) :
    Executes around (modify fun s => { s with executed := s.executed ++ done }) P fun _ => True :=
  fun _ => ⟨done, rfl, h, fun _ _ => trivial⟩

theorem ExecutesFrom.bind {s : ProgramState} (hw : ExecutesFrom around s w P Q)
    (hf : ∀ a, Q a → Executes around (f a) P R) : ExecutesFrom around s (w >>= f) P R := by
  obtain ⟨done, hdone, hP, hQ⟩ := hw
  have hrun : (((w >>= f).run around).run.run s) = match (w.run around).run.run s with
      | (.ok a, s) => ((f a).run around).run.run s
      | (.error reason, s) => (.error reason, s) := by
    rw [ReaderT.run_bind, ExceptT.run_bind, StateT.run_bind]
    rcases (w.run around).run.run s with ⟨_ | a, s'⟩ <;> rfl
  rw [ExecutesFrom, hrun]
  rcases h : (w.run around).run.run s with ⟨reason | a, s'⟩
  · rw [h] at hdone
    exact ⟨done, hdone, hP, nofun⟩
  · rw [h] at hdone hQ
    obtain ⟨more, hmore, hP', hR⟩ := hf a (hQ a rfl) s'
    refine ⟨done ++ more, ?_, List.forall_mem_append.mpr ⟨hP, hP'⟩, hR⟩
    dsimp only at hdone ⊢
    rw [hmore, hdone, List.append_assoc]

namespace Executes

theorem bind (hw : Executes around w P Q) (hf : ∀ a, Q a → Executes around (f a) P R) :
    Executes around (w >>= f) P R :=
  fun s => (hw s).bind hf

theorem mono {P' : Executed → Prop} {Q' : α → Prop} (hw : Executes around w P Q)
    (hP : ∀ x, P x → P' x) (hQ : ∀ a, Q a → Q' a) : Executes around w P' Q' := by
  intro s
  obtain ⟨more, hmore, hall, hresult⟩ := hw s
  exact ⟨more, hmore, fun x hx => hP x (hall x hx), fun a ha => hQ a (hresult a ha)⟩

end Executes

theorem executes_forM {g : α → ProgramWork Unit} {as : List α}
    (h : ∀ a, Executes around (g a) P fun _ => True) :
    Executes around (as.forM g) P fun _ => True := by
  induction as with
  | nil => exact executes_pure trivial
  | cons a as ih => exact (h a).bind fun _ _ => ih

end ProgramWork

/-! ### Parts of the program -/

/-- The configuration with the settings of a command in place of its own. -/
def Command.over (c : Config) : Command → Config
  | .migrate o => { c with migration := o.apply c.migration }
  | .transfer o => { c with transfer := o.apply c.transfer }
  | .healthCheck => c

namespace Program

open ProgramWork

variable {around : Surroundings} {P : Executed → Prop} {a : Arguments} {c : Config}
  {db : Databases} {tables : List Table}

theorem executes_print (text : String) : Executes around (print text) P fun _ => True :=
  executes_modify fun _ => rfl

theorem executes_complain (text : String) : Executes around (complain text) P fun _ => True :=
  executes_modify fun _ => rfl

theorem executes_note (entry : LogEntry) : Executes around (note entry) P fun _ => True := by
  refine fun s => executesFrom_get_bind ?_
  split
  · refine executesFrom_read_bind ?_
    dsimp only
    split
    · exact executesFrom_set rfl
    · exact executes_complain _ s
  · exact executes_pure trivial s

theorem executes_openLog (a : Arguments) (c : Config) :
    Executes around (openLog a c) P fun _ => True := by
  unfold openLog
  dsimp only
  split
  · exact executes_modify fun _ => rfl
  · refine fun s => executesFrom_get_bind ?_
    rcases (FileTree.openToAppend _).run.run s.files with ⟨opened, files⟩
    refine ExecutesFrom.bind (executes_modify ?_ s) fun _ _ => ?_
    · exact fun _ => rfl
    · cases opened with
      | ok place => exact executes_modify fun _ => rfl
      | error reason => exact executes_throw _

theorem executes_finish (a : Arguments) (r : RunReport) (cancelled : Bool) :
    Executes around (finish a r cancelled) P fun _ => True :=
  executes_read.bind fun _ _ => (executes_print _).bind fun _ _ => executes_pure trivial

theorem executes_onDatabases {α : Type} {w : DatabaseWork MigrationError α}
    (h : ∀ x ∈ w.statements, P x) :
    Executes around (onDatabases w) P fun a => w.result = .ok a :=
  (executes_add h).bind fun _ _ => executes_ofExcept w.result

theorem executes_connect {d : DatabaseConfig} (h : P ⟨d.database, .ping⟩) (role : String) :
    Executes around (connect d role) P fun connection => connection.database = d.database := by
  have hopen : Executes around (onDatabases (Connection.connect around.server d role)) P
      fun connection => connection.database = d.database := by
    refine (executes_onDatabases fun x hx => ?_).mono (fun _ => id) fun connection hconnection => ?_
    · rwa [Connection.statements_connect _ d role x hx]
    · rw [(Connection.result_connect_eq_ok.mp hconnection).1]
  have hrest : Executes around (do
      let connection ← onDatabases (Connection.connect (← read).server d role)
      note ⟨.info, s!"connected to the {role} database {d.target}"⟩
      return connection) P fun connection => connection.database = d.database := by
    refine fun s => executesFrom_read_bind (hopen.bind (fun connection hconnection => ?_) s)
    exact (executes_note _).bind fun _ _ => executes_pure hconnection
  unfold connect
  split
  · exact (executes_note _).bind fun _ _ => hrest
  · exact hrest

theorem executes_connectBoth (hold : P ⟨c.old.database, .ping⟩) (hnew : P ⟨c.new.database, .ping⟩) :
    Executes around (connectBoth c) P fun db =>
      db.old.database = c.old.database ∧ db.new.database = c.new.database :=
  (executes_connect hold "old").bind fun _ hold => (executes_connect hnew "new").bind fun _ hnew =>
    executes_pure ⟨hold, hnew⟩

theorem executes_follow {acts : List Act} (h : ∀ act ∈ acts, ∀ x ∈ db.statements act, P x) :
    Executes around (follow db acts) P fun _ => True := by
  refine (executes_add fun x hx => ?_).bind fun _ _ => executes_forM fun act => executes_note _
  obtain ⟨act, hact, hx⟩ := List.mem_flatMap.mp hx
  exact h act hact x hx

theorem executes_plan (h : P ⟨db.old.database, .heightBounds⟩) (c : Config) :
    Executes around (plan db c) P fun _ => True := by
  have hrest : Executes around (MonadExcept.ofExcept (c.plan db.endpoints.bounds)) P
      fun _ => True := (executes_ofExcept _).mono (fun _ => id) fun _ _ => trivial
  unfold plan
  split
  · refine (executes_add fun x hx => ?_).bind fun _ _ => hrest
    obtain ⟨hdatabase, hs⟩ := db.old.only_heightBounds.statements x hx
    rwa [← hdatabase, ← hs] at h
  · exact hrest

/-! ### Commands -/

/-- The statements that migrate tables between two databases. -/
inductive Migrates (old new : String) (tables : List Table) : Executed → Prop
  | read {t : Table} (ht : t ∈ tables) (bounds : Option (Int64 × Int64)) :
    Migrates old new tables ⟨old, .read t bounds⟩
  | insert {t : Table} (ht : t ∈ tables) (columns : List (List Value)) :
    Migrates old new tables ⟨new, .insert t columns⟩

/-- The statements that copy through a foreign table of a database. -/
inductive Copies (new name : String) : Executed → Prop
  | lastPlace : Copies new name ⟨new, .lastPlace name⟩
  | copy {s : Statement} (hs : s.Copies name) : Copies new name ⟨new, s⟩

/-- **The statements of a command** with a configuration. Both databases are pinged; all else takes
a configuration whose settings are in order. -/
inductive Uses (c : Config) : Command → Executed → Prop
  | pingOld (command : Command) : Uses c command ⟨c.old.database, .ping⟩
  | pingNew (command : Command) : Uses c command ⟨c.new.database, .ping⟩
  | heightBounds {o : MigrateOverrides} (hc : c.Valid) :
    Uses c (.migrate o) ⟨c.old.database, .heightBounds⟩
  | migrate {o : MigrateOverrides} {tables : List Table} {x : Executed} (hc : c.Valid)
    (htables : c.migration.tableNames = .ok tables)
    (hx : Migrates c.old.database c.new.database tables x) : Uses c (.migrate o) x
  | transfer {o : TransferOverrides} {x : Executed} (hc : c.Valid)
    (hx : Copies c.new.database c.transfer.tableName x) : Uses c (.transfer o) x

theorem migrates_of_concerns {act : Act} (h : act.Concerns tables []) :
    ∀ x ∈ db.statements act, Migrates db.old.database db.new.database tables x := by
  cases act with
  | read t range =>
    rintro ⟨_, s⟩ hx
    obtain ⟨rfl, bounds, rfl⟩ := (db.old.only_readRows t range).statements _ hx
    exact .read h bounds
  | write t range rows accepted =>
    rintro ⟨_, s⟩ hx
    obtain ⟨rfl, columns, rfl⟩ := (db.new.only_writeRows t range rows).statements _ hx
    exact .insert h columns
  | lookUp | copy => cases h
  | _ => exact List.forall_mem_nil _

theorem copies_of_concerns {act : Act} {name : String} (h : act.Concerns [] [name]) :
    ∀ x ∈ db.statements act, Copies db.new.database name x := by
  cases act with
  | lookUp name' =>
    obtain rfl := List.mem_singleton.mp h
    rintro ⟨_, s⟩ hx
    obtain ⟨rfl, rfl⟩ := (db.new.only_lastPage name').statements _ hx
    exact .lastPlace
  | copy name' pages =>
    obtain rfl := List.mem_singleton.mp h
    rintro ⟨_, s⟩ hx
    obtain ⟨rfl, hs⟩ := (db.new.only_copyPages name' pages).statements _ hx
    exact .copy hs
  | read | write => cases h
  | _ => exact List.forall_mem_nil _

theorem executes_advance {r : MigrationRun} (hr : r.Only tables)
    (h : ∀ x, Migrates db.old.database db.new.database tables x → P x) (replies : Replies) :
    Executes around (advance db replies r) P fun next => next.Only tables := by
  obtain ⟨events, hrun, hacts⟩ := r.exists_run_settle replies []
  obtain ⟨hnext, hconcerns⟩ := hr.run hrun
  unfold advance
  dsimp only
  refine Executes.bind (executes_modify ?_) fun _ _ => ?_
  · exact fun _ => rfl
  · refine (executes_follow fun act hact x hx => ?_).bind fun _ _ => executes_pure hnext
    rw [hacts, List.append_nil, List.reverse_reverse] at hact
    exact h x (migrates_of_concerns (hconcerns act hact) x hx)

theorem executes_migrateUntilStopped {r : MigrationRun} (hr : r.Only tables)
    (h : ∀ x, Migrates db.old.database db.new.database tables x → P x) (a : Arguments) :
    Executes around (migrateUntilStopped a db r) P fun _ => True := by
  unfold migrateUntilStopped
  refine executes_read.bind fun _ _ => (executes_advance hr h _).bind fun next hnext => ?_
  have hresult (r : MigrationRun) (cancelled : Bool) : Executes around (do
      return (← MonadExcept.ofExcept r.result, cancelled) : ProgramWork (List TableReport × Bool))
      P fun _ => True :=
    (executes_ofExcept _).bind fun _ _ => executes_pure trivial
  split
  · split
    · exact hresult next false
    · have hclosed : MigrationRun.Only tables { next with engine := next.engine.close } :=
        ⟨hnext.engine.close, hnext.waiting⟩
      have hrest : Executes around (do
          let r ← advance db db.endpoints.replies { next with engine := next.engine.close }
          return (← MonadExcept.ofExcept r.result, true)) P fun _ => True :=
        (executes_advance hclosed h _).bind fun r _ => hresult r true
      refine (executes_complain _).bind fun _ _ => ?_
      split
      · exact (executes_complain _).bind fun _ _ =>
          (executes_throw (Q := fun _ => True) _).bind fun _ _ => hrest
      · exact hrest
  · exact hresult next false

theorem executes_migrate (a : Arguments) (c : Config) (o : MigrateOverrides) :
    Executes around (migrate a c) (Uses c (.migrate o)) fun _ => True := by
  unfold migrate
  refine executes_read.bind fun _ _ => (executes_ofExcept _).bind fun _ hvalid => ?_
  have hc := Config.validate_eq_ok.mp hvalid
  refine (executes_ofExcept _).bind fun tables htables => ?_
  refine executes_unless ?_
  refine (executes_ofExcept _).bind fun policy _ => ?_
  refine (executes_connectBoth (.pingOld _) (.pingNew _)).bind fun db hdb => ?_
  have hbounds : Uses c (.migrate o) ⟨db.old.database, .heightBounds⟩ := by
    rw [hdb.1]
    exact .heightBounds hc
  refine (executes_plan hbounds c).bind fun ranges _ => (executes_note _).bind fun _ _ => ?_
  refine fun s => executesFrom_get_bind ?_
  dsimp only
  refine ExecutesFrom.bind (executes_migrateUntilStopped (MigrationRun.only_begin _ _ _ _)
    (fun x hx => ?_) a s) fun _ _ => executes_finish _ _ _
  rw [hdb.1, hdb.2] at hx
  exact .migrate hc htables hx

/-- What a transfer does once its pages are copied. -/
def reportTransfer (a : Arguments) (c : Config) (around : Surroundings)
    (result : TransferResult) : ProgramWork Nat := do
  let transfer ← MonadExcept.ofExcept result.report
  if transfer.segments = 0 then
    note ⟨.warn, s!"{transfer.tableName}: the offset skips all segments"⟩
  let report := RunReport.begin around.runId "transfer" c.fingerprint around.startedAt
  finish a { report with transfer := some transfer } false

theorem transfer_eq (a : Arguments) (c : Config) : transfer a c = (do
    let around ← read
    MonadExcept.ofExcept c.validate
    let policy ← MonadExcept.ofExcept c.policy
    let db ← connectBoth c
    let result := transferPages db.endpoints c.log.transferGapsDir
      (around.startedAt.milliseconds / 1000) c.transfer (.fresh policy) (← get).files
    modify fun s => { s with files := result.files }
    follow db result.acts
    reportTransfer a c around result) := rfl

theorem executes_reportTransfer (a : Arguments) (c : Config) (result : TransferResult) :
    Executes around (reportTransfer a c around result) P fun _ => True := by
  refine (executes_ofExcept _).bind fun transfer _ => ?_
  split
  · exact (executes_note _).bind fun _ _ => executes_finish _ _ _
  · exact executes_finish _ _ _

theorem executes_transfer (a : Arguments) (c : Config) (o : TransferOverrides) :
    Executes around (transfer a c) (Uses c (.transfer o)) fun _ => True := by
  rw [transfer_eq]
  refine executes_read.bind ?_
  rintro _ rfl
  refine (executes_ofExcept _).bind fun _ hvalid => ?_
  have hc := Config.validate_eq_ok.mp hvalid
  refine (executes_ofExcept _).bind fun policy _ => ?_
  refine (executes_connectBoth (.pingOld _) (.pingNew _)).bind fun db hdb => ?_
  refine fun s => executesFrom_get_bind ?_
  dsimp only
  refine ExecutesFrom.bind (executes_modify ?_ s) fun _ _ => ?_
  · exact fun _ => rfl
  refine (executes_follow fun act hact x hx => ?_).bind fun _ _ => executes_reportTransfer a c _
  have hx := copies_of_concerns (concerns_of_mem_transferPages hact) x hx
  rw [hdb.2] at hx
  exact .transfer hc hx

theorem executes_checkHealth (a : Arguments) (c : Config) (command : Command) :
    Executes around (checkHealth a c) (Uses c command) fun _ => True := by
  unfold checkHealth
  refine executes_read.bind fun _ _ => ?_
  refine (executes_connectBoth (.pingOld _) (.pingNew _)).bind fun db hdb => ?_
  have hold : ∀ x ∈ (db.old.ping "old").statements, Uses c command x := by
    rintro ⟨_, s⟩ hx
    obtain ⟨rfl, rfl⟩ := (db.old.only_ping "old").statements _ hx
    rw [hdb.1]
    exact .pingOld command
  have hnew : ∀ x ∈ (db.new.ping "new").statements, Uses c command x := by
    rintro ⟨_, s⟩ hx
    obtain ⟨rfl, rfl⟩ := (db.new.only_ping "new").statements _ hx
    rw [hdb.2]
    exact .pingNew command
  exact (executes_onDatabases hold).bind fun _ _ => (executes_onDatabases hnew).bind fun _ _ =>
    (executes_print _).bind fun _ _ => executes_pure trivial

/-! ### The whole program -/

/-- **The statements of a command line**: those of its command with the configuration that is loaded
and the settings of the command over it. -/
def UsedBy (a : Arguments) (environment : Environment) (files : FileTree) (x : Executed) : Prop :=
  ∃ c, Config.load (files.read a.config) environment = .ok c ∧ Uses (a.command.over c) a.command x

theorem executesFrom_execute (around : Surroundings) (a : Arguments) (s : ProgramState) :
    ExecutesFrom around s (execute a) (UsedBy a around.environment s.files) fun _ => True := by
  refine executesFrom_get_bind (executesFrom_read_bind ?_)
  refine (executes_ofExcept _ s).bind fun c hc => ?_
  have hcommand : Executes around (match a.command with
      | .migrate o => migrate a { c with migration := o.apply c.migration }
      | .transfer o => transfer a { c with transfer := o.apply c.transfer }
      | .healthCheck => checkHealth a c) (Uses (a.command.over c) a.command) fun _ => True := by
    cases a.command with
    | migrate o => exact executes_migrate a _ o
    | transfer o => exact executes_transfer a _ o
    | healthCheck => exact executes_checkHealth a c .healthCheck
  exact (executes_openLog a c).bind fun _ _ => (executes_note _).bind fun _ _ =>
    hcommand.mono (fun x hx => ⟨c, hc, hx⟩) fun _ => id

theorem executed_run {words : List String} (hwords : Arguments.ofWords words = .ok a)
    (files : FileTree) : (run words around files).state.executed =
      (((execute a).run around).run.run { files }).2.executed := by
  rw [run, hwords]
  dsimp only
  split
  · next h => rw [h]
  · next h => rw [h]

/-- **What a program executes** is what its command line uses. -/
theorem usedBy_of_executed {words : List String} {around : Surroundings} {files : FileTree} :
    ∀ x ∈ (run words around files).state.executed, ∃ a, Arguments.ofWords words = .ok a ∧
      UsedBy a around.environment files x := by
  intro x hx
  cases hwords : Arguments.ofWords words with
  | error reason =>
    rw [run, hwords] at hx
    cases reason <;> cases hx
  | ok a =>
    obtain ⟨more, hmore, hall, -⟩ := executesFrom_execute around a { files }
    rw [executed_run hwords, hmore, List.nil_append] at hx
    exact ⟨a, rfl, hall x hx⟩

/-! ### Transfers that copy -/

section Transfers

variable {α β : Type} {w : ProgramWork α} {f : α → ProgramWork β} {s s' : ProgramState}
  {x : Executed}

/-- **The work comes to a result**, and files stay as they are if the log goes to the standard
error. -/
def ComesTo (around : Surroundings) (w : ProgramWork α) (result : α) : Prop :=
  ∀ s : ProgramState, s.log.place = none →
    ∃ s', (w.run around).run.run s = (.ok result, s') ∧ s'.files = s.files ∧ s'.log = s.log

theorem run_bind_of_ok {result : α} (h : (w.run around).run.run s = (.ok result, s')) :
    ((w >>= f).run around).run.run s = ((f result).run around).run.run s' := by
  rw [ReaderT.run_bind, ExceptT.run_bind, StateT.run_bind, h]
  rfl

theorem comesTo_pure (result : α) : ComesTo around (pure result) result :=
  fun s _ => ⟨s, rfl, rfl, rfl⟩

theorem comesTo_read : ComesTo around read around :=
  fun s _ => ⟨s, rfl, rfl, rfl⟩

theorem ComesTo.bind {result : α} {result' : β} (hw : ComesTo around w result)
    (hf : ComesTo around (f result) result') : ComesTo around (w >>= f) result' := by
  intro s hplace
  obtain ⟨between, hrun, hfiles, hlog⟩ := hw s hplace
  obtain ⟨after, hrun', hfiles', hlog'⟩ := hf between (hlog ▸ hplace)
  exact ⟨after, (run_bind_of_ok hrun).trans hrun', hfiles'.trans hfiles, hlog'.trans hlog⟩

theorem comesTo_note (entry : LogEntry) : ComesTo around (note entry) () := by
  intro s hplace
  have hnote : ((note entry).run around).run.run s =
      if s.log.shows entry then
        (.ok (), { s with diagnostics := s.diagnostics ++ s.log.line around.startedAt entry })
      else (.ok (), s) := by
    rw [note, run_bind_of_ok rfl]
    split
    · rw [run_bind_of_ok rfl, hplace]
      rfl
    · rfl
  rw [hnote]
  split <;> exact ⟨_, rfl, rfl, rfl⟩

theorem comesTo_onDatabases {w : DatabaseWork MigrationError α} {result : α}
    (h : w.result = .ok result) : ComesTo around (onDatabases w) result := by
  intro s _
  refine ⟨{ s with executed := s.executed ++ w.statements }, ?_, rfl, rfl⟩
  rw [onDatabases, run_bind_of_ok rfl, h]
  rfl

theorem comesTo_connect {d : DatabaseConfig} {role : String} {connection : Connection}
    (h : (Connection.connect around.server d role).result = .ok connection) :
    ComesTo around (connect d role) connection := by
  have hrest : ComesTo around (do
      let connection ← onDatabases (Connection.connect (← read).server d role)
      note ⟨.info, s!"connected to the {role} database {d.target}"⟩
      return connection) connection :=
    comesTo_read.bind ((comesTo_onDatabases h).bind
      ((comesTo_note _).bind (comesTo_pure connection)))
  unfold connect
  split
  · exact (comesTo_note _).bind hrest
  · exact hrest

theorem comesTo_connectBoth
    (hold : (Connection.connect around.server c.old "old").result = .ok db.old)
    (hnew : (Connection.connect around.server c.new "new").result = .ok db.new) :
    ComesTo around (connectBoth c) db :=
  (comesTo_connect hold).bind ((comesTo_connect hnew).bind (comesTo_pure db))

theorem executed_bind (hf : ∀ a, Executes around (f a) (fun _ => True) fun _ => True)
    (h : x ∈ ((w.run around).run.run s).2.executed) :
    x ∈ (((w >>= f).run around).run.run s).2.executed := by
  rcases hrun : (w.run around).run.run s with ⟨reason | a, s'⟩
  · rw [hrun] at h
    rw [ReaderT.run_bind, ExceptT.run_bind, StateT.run_bind, hrun]
    exact h
  · obtain ⟨more, hmore, -⟩ := hf a s'
    rw [hrun] at h
    rw [run_bind_of_ok hrun, hmore]
    exact List.mem_append_left _ h

variable {gapFile : GapFile} {opened : FileTree} {pages : BlockRange} {rest : List BlockRange}

/-- **A transfer copies its first segment** if its configuration is in order, its databases can be
connected to and its gap file can be opened. -/
theorem executed_of_transfer (hc : c.Valid) (hplace : s.log.place = none)
    (hdb : ComesTo around (connectBoth c) db)
    (hopen : (GapFile.create c.log.transferGapsDir c.transfer.tableName
      (around.startedAt.milliseconds / 1000)).run.run s.files = (.ok gapFile, opened))
    (hsegments : c.transfer.segments db.endpoints.lastPage = .ok (pages :: rest))
    (hx : x ∈ db.statements (.copy c.transfer.tableName pages)) :
    x ∈ (((transfer a c).run around).run.run s).2.executed := by
  obtain ⟨p, hpolicy, -⟩ := Config.exists_policy hc.required
  obtain ⟨connected, hconnected, hfiles, -⟩ := hdb s hplace
  rw [← hfiles] at hopen
  rw [transfer_eq, run_bind_of_ok rfl, Config.validate_eq_ok.mpr hc, run_bind_of_ok rfl, hpolicy,
    run_bind_of_ok rfl, run_bind_of_ok hconnected, run_bind_of_ok rfl]
  dsimp only
  rw [run_bind_of_ok rfl]
  refine executed_bind (fun _ => executes_reportTransfer a c _) ?_
  refine executed_bind (fun _ => executes_forM fun act => executes_note _) ?_
  refine List.mem_append_right _ (List.mem_flatMap.mpr ⟨_, ?_, hx⟩)
  exact copy_mem_transferPages hopen hsegments

theorem executed_run_transfer {words : List String} {files : FileTree} {o : TransferOverrides}
    (hwords : Arguments.ofWords words = .ok a) (hcommand : a.command = .transfer o)
    (hload : Config.load (files.read a.config) around.environment = .ok c)
    (hlog : a.logFile.or c.log.file = none)
    (h : ∀ s : ProgramState, s.files = files → s.log.place = none →
      x ∈ (((transfer a (a.command.over c)).run around).run.run s).2.executed) :
    x ∈ (run words around files).state.executed := by
  obtain ⟨level, json, hopened⟩ : ∃ level json, openLog a c =
      modify fun s => { s with log := ⟨level, json, none⟩ } := by
    refine ⟨.ofVerbosity ((a.verbosity.or c.log.level).getD "info"), a.logFormat = "json", ?_⟩
    rw [openLog, hlog]
  let started : ProgramState := { files, log := ⟨level, json, none⟩ }
  have hstarted : ((openLog a c).run around).run.run { files } = (.ok (), started) := by
    rw [hopened]
    rfl
  have hnote : ComesTo around
      (note ⟨.info, "Loaded configuration from " ++ Text.quoted a.config⟩) () := comesTo_note _
  obtain ⟨noted, hnoted, hfiles, hkept⟩ := hnote started rfl
  rw [executed_run hwords, execute, run_bind_of_ok rfl, run_bind_of_ok rfl, hload,
    run_bind_of_ok rfl, run_bind_of_ok hstarted, run_bind_of_ok hnoted]
  have hdone := h noted hfiles (by rw [hkept])
  rw [hcommand] at hdone ⊢
  exact hdone

end Transfers

end Program

end ChainMigration
