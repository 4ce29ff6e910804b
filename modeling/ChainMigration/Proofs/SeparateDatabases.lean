import ChainMigration.Proofs.GapFiles
import ChainMigration.Proofs.InsertColumns
import ChainMigration.Proofs.ProgramStatements
import ChainMigration.Proofs.SupplyCount

/-! # Moves between two databases

The old database and the new one are apart if they differ in host, port or name (`Config.Apart`). A
configuration may pass the check with one database for both only if its tables are nothing but log
repair, and then it always does (`Config.valid_joined_iff`).

Whatever a migration goes through, it has pools of its own tables alone, so a pool of any other
table means that the databases are apart. The check does not know which command it is made for,
however, and a transfer copies whatever tables are configured. `databases_apart` says when each of
them moves data, and `transfer_within_database` is a transfer that copies within one database. -/

namespace ChainMigration

/-! ### Where the databases are -/

namespace Config

variable {c : Config}

/-- **The databases are apart**: they differ in host, port or name. -/
def Apart (c : Config) : Prop :=
  c.old.host ≠ c.new.host ∨ c.old.port ≠ c.new.port ∨ c.old.database ≠ c.new.database

/-- **There is nothing but log repair among the tables**, and there are tables. -/
def OnlyRepairs (c : Config) : Prop :=
  ∃ tables, c.migration.tableNames = .ok tables ∧ tables ≠ [] ∧ ∀ t ∈ tables, t = .logRepair

theorem sameAs_eq_false_iff : c.old.sameAs c.new = false ↔ c.Apart := by
  simp only [DatabaseConfig.sameAs, Apart, Bool.and_eq_false_iff, beq_eq_false_iff_ne, or_assoc]

theorem repairsOnly_eq_true_iff {tables : List Table} :
    repairsOnly tables = true ↔ tables ≠ [] ∧ ∀ t ∈ tables, t = .logRepair := by
  simp [repairsOnly, List.all_eq_true]

/-- **What the check says of the databases**: they are apart, or only logs are to be repaired. -/
theorem Valid.apart_or (hc : c.Valid) : c.Apart ∨ c.OnlyRepairs := by
  obtain ⟨tables, htables, h⟩ := hc.tables
  rw [Bool.or_eq_true, Bool.not_eq_true', sameAs_eq_false_iff, repairsOnly_eq_true_iff] at h
  exact h.symm.imp_right fun h => ⟨tables, htables, h⟩

theorem Valid.apart_of_mem {tables : List Table} {t : Table} (hc : c.Valid)
    (htables : c.migration.tableNames = .ok tables) (ht : t ∈ tables) (hrepair : t ≠ .logRepair) :
    c.Apart := by
  refine hc.apart_or.resolve_right ?_
  rintro ⟨tables', htables', -, hall⟩
  cases htables.symm.trans htables'
  exact hrepair (hall t ht)

/-- The configuration with its new database in the place of the old one. -/
def joined (c : Config) : Config :=
  { c with new := { c.new with
      host := c.old.host, port := c.old.port, database := c.old.database } }

/-- **The check accepts one database for both** exactly if only logs are to be repaired, whatever
the configuration is used for. -/
theorem valid_joined_iff (hc : c.Valid) : c.joined.Valid ↔ c.OnlyRepairs := by
  constructor
  · intro h
    refine h.apart_or.resolve_left ?_
    rintro (h | h | h) <;> exact h rfl
  · rintro ⟨tables, htables, hrepairs⟩
    have hrepairs : repairsOnly tables = true := repairsOnly_eq_true_iff.mpr hrepairs
    exact { hc with
      new := { hc.new with host := hc.old.host, database := hc.old.database }
      tables := ⟨tables, htables, by rw [hrepairs, Bool.true_or]⟩ }

end Config

/-! ### What moves data -/

/-- The statement moves data, or begins or ends a transaction that does. -/
def Statement.Moves : Statement → Prop
  | .read _ _ | .insert _ _ | .begin | .copyPage _ _ | .commit => True
  | .ping | .heightBounds | .lastPlace _ => False

/-- **The arguments of a command line and the configuration that its command works with**: the one
that is loaded, with the settings of the command line over it. -/
def Program.Effective (words : List String) (environment : Environment) (files : FileTree)
    (a : Arguments) (c : Config) : Prop :=
  Arguments.ofWords words = .ok a ∧ ∃ loaded,
    Config.load (files.read a.config) environment = .ok loaded ∧ c = a.command.over loaded

theorem MigrationRun.table_mem_of_run {s : RunSetting} {p : Policy} {files : FileTree}
    {tables : List Table} {events : List RunEvent} {r : MigrationRun}
    (hrun : (begin s (.fresh p) files tables).run? events = some r) :
    ∀ pool ∈ r.engine.pools, pool.table ∈ tables :=
  ((only_begin s p files tables).run hrun).1.engine.pools

/-- **Data is moved between databases that are apart, but for repairs.** Whatever a program is
called with, and whatever answers it gets, each statement with which it moves data belongs to a
command whose configuration is in order. If that is a migration, the statement reads or fills one of
its tables, and the databases are apart unless this is log repair. If it is a transfer, the
databases are apart unless the tables that are configured are only log repair. However else a
migration may go on, it starts no pool of another table while the databases are not apart. The check
itself accepts one database for both, for any command, exactly if only logs are to be repaired. -/
theorem databases_apart (words : List String) (around : Surroundings) (files : FileTree) :
    (∀ x ∈ (Program.run words around files).state.executed, x.statement.Moves →
      ∃ a c, Program.Effective words around.environment files a c ∧ c.Valid ∧
        ((∃ o tables t, a.command = .migrate o ∧ c.migration.tableNames = .ok tables ∧
            t ∈ tables ∧ Program.Migrates c.old.database c.new.database [t] x ∧
            (t ≠ .logRepair → c.Apart)) ∨
          ∃ o, a.command = .transfer o ∧
            Program.Copies c.new.database c.transfer.tableName x ∧
            (c.Apart ∨ c.OnlyRepairs))) ∧
    (∀ (c : Config) (tables : List Table), c.Valid → c.migration.tableNames = .ok tables →
      ∀ (s : RunSetting) (p : Policy) (files : FileTree) (events : List RunEvent)
        (r : MigrationRun), (MigrationRun.begin s (.fresh p) files tables).run? events = some r →
        ∀ pool ∈ r.engine.pools, pool.table ∈ tables ∧ (pool.table ≠ .logRepair → c.Apart)) ∧
    ∀ c : Config, c.Valid → (c.joined.Valid ↔ c.OnlyRepairs) := by
  refine ⟨fun x hx hmoves => ?_, fun c tables hc htables s p files events r hrun pool hpool => ?_,
    fun c => Config.valid_joined_iff⟩
  · obtain ⟨a, hwords, loaded, hload, huses⟩ := Program.usedBy_of_executed x hx
    refine ⟨a, _, ⟨hwords, loaded, hload, rfl⟩, ?_⟩
    generalize a.command.over loaded = c at huses ⊢
    generalize a.command = command at huses ⊢
    cases huses with
    | pingOld | pingNew | heightBounds => cases hmoves
    | @migrate o tables _ hc htables hx =>
      refine ⟨hc, .inl ?_⟩
      cases hx with
      | read ht bounds =>
        exact ⟨o, tables, _, rfl, htables, ht, .read List.mem_cons_self bounds,
          hc.apart_of_mem htables ht⟩
      | insert ht columns =>
        exact ⟨o, tables, _, rfl, htables, ht, .insert List.mem_cons_self columns,
          hc.apart_of_mem htables ht⟩
    | transfer hc hx => exact ⟨hc, .inr ⟨_, rfl, hx, hc.apart_or⟩⟩
  · have ht := MigrationRun.table_mem_of_run hrun pool hpool
    exact ⟨ht, hc.apart_of_mem htables ht⟩

/-! ### Files in the working directory -/

namespace FileTree

variable {name : String} {t : FileTree}

theorem endsWith_slash_of_not_mem (hne : name ≠ "") (hslash : '/' ∉ name.toList) :
    name.endsWith "/" = false := by
  have hends := endsWith_slash_join "" hne hslash
  rwa [join, decide_eq_true rfl, Bool.or_true, if_pos rfl] at hends

theorem target_of_not_mem (hne : name ≠ "") (hslash : '/' ∉ name.toList)
    (hrelative : isRelative name = false) :
    t.target (t.origin name) (components name) = .ok (some (t.workingDirectory ++ [name])) := by
  rw [components_of_not_mem hne hslash, origin, startsWith_slash_of_not_mem hslash]
  show Except.ok (if isRelative name then none else some (t.workingDirectory ++ [name])) = _
  rw [hrelative]
  rfl

theorem read_of_find? {content : ByteArray} (hne : name ≠ "") (hrefusal : refusal? name = none)
    (hshort : isLongName name = false) (hslash : '/' ∉ name.toList)
    (hrelative : isRelative name = false)
    (hfind : t.find? (t.workingDirectory ++ [name]) = some (.file content)) :
    t.read name = .ok content := by
  rw [read, if_neg hne, hrefusal]
  dsimp only
  rw [target_of_not_mem hne hslash hrelative]
  dsimp only [bind, Except.bind]
  rw [lookUp_of_short hshort]
  dsimp only
  rw [hfind, endsWith_slash_of_not_mem hne hslash]
  rfl

end FileTree

theorem GapFile.exists_create {name : String} {seconds : Int} {files : FileTree}
    (hrefusal : FileTree.refusal? (fileName name seconds) = none)
    (hshort : FileTree.isLongName (fileName name seconds) = false)
    (hslash : '/' ∉ (fileName name seconds).toList)
    (hrelative : FileTree.isRelative (fileName name seconds) = false)
    (hfree : files.find? (files.workingDirectory ++ [fileName name seconds]) = none) :
    ∃ file opened, (create "" name seconds).run.run files = (.ok file, opened) := by
  have hne : fileName name seconds ≠ "" := by
    rw [ne_eq, ← String.toList_eq_nil_iff, fileName_toList]
    exact List.append_ne_nil_of_right_ne_nil _ (List.cons_ne_nil _ _)
  have hmade : (FileTree.makePath "").run.run files = (.ok (), files) := by
    rw [FileTree.makePath]
    show (FileTree.makeDirectories (files.origin "") (FileTree.components "").length
      (FileTree.components "")).run.run files = _
    rw [FileTree.components_empty]
    rfl
  have hpath : path "" name seconds = fileName name seconds := by
    rw [path, FileTree.join, decide_eq_true rfl, Bool.or_true, if_pos rfl]
    rfl
  have hopened := (FileTree.run_openToAppend hne hrefusal
    (FileTree.target_of_not_mem hne hslash hrelative)
    (FileTree.endsWith_slash_of_not_mem hne hslash) (FileTree.lookUp_of_short hshort files)).1 hfree
  rw [create, FileTree.run_bind_of_ok hmade, hpath]
  exact ⟨_, _, FileTree.run_bind_of_ok hopened⟩

/-- **A file is loaded** if its text is read as a configuration that is in order. -/
theorem Config.load_eq_ok {text : String} {environment : Environment} {c : Config}
    (hread : ofYamlOver text environment = .ok c) (hc : c.Valid) :
    load (.ok text.toUTF8) environment = .ok c := by
  have htext : String.fromUTF8? text.toUTF8 = some text := dif_pos text.isValidUTF8
  rw [load]
  dsimp only [Except.mapError, bind, Except.bind]
  rw [htext]
  dsimp only
  rw [hread]
  dsimp only
  rw [validate_eq_ok.mpr hc]
  rfl

/-! ### A transfer within one database -/

/-- A file that configures one database as the old one and as the new one. -/
def oneDatabaseText : String :=
  "old: \x7bhost: h, database: v3, user: u\x7d\nnew: \x7bhost: h, database: v3, user: u\x7d
migration: \x7btables: [logs-repair]\x7d\nlog: \x7btransfer_gaps_dir: ''\x7d\n"

/-- The configuration in the file. -/
def oneDatabase : Config where
  old := { host := "h", database := "v3", user := "u" }
  new := { host := "h", database := "v3", user := "u" }
  migration := { tables := ["logs-repair"] }
  log := { transferGapsDir := "" }

/-- The working directory with the file. -/
def oneDatabaseFiles : FileTree := ⟨[], [(["config.yaml"], .file oneDatabaseText.toUTF8)]⟩

/-- A server that accepts everything and holds nothing. -/
def willingServer : Server where
  login _ _ := .ok ()
  execute _ s := match s with
    | .ping | .begin | .commit => .ok ()
    | .heightBounds => .ok (none, none)
    | .read _ _ => .ok []
    | .insert _ _ | .copyPage _ _ => .ok (0 : Nat)
    | .lastPlace _ => .ok none

/-- Surroundings in which nothing goes wrong. -/
def calm : Surroundings where
  environment _ := none
  server := willingServer
  interruption := none
  runId := ⟨0⟩
  startedAt := ⟨0⟩
  completedAt := ⟨0⟩
  latencies := ⟨0, 0⟩

/-- The command line of a transfer up to the third page. -/
def threePagesWords : List String := ["transfer", "--max-page", "3"]

/-- The arguments of the command line. -/
def threePagesArguments : Arguments :=
  ⟨"config.yaml", false, "text", none, none, 60, .transfer { maxPage := some 3 }⟩

theorem ofWords_threePagesWords : Arguments.ofWords threePagesWords = .ok threePagesArguments :=
  rfl

theorem load_oneDatabase :
    Config.load (oneDatabaseFiles.read "config.yaml") calm.environment = .ok oneDatabase := by
  have hfile : oneDatabaseFiles.read "config.yaml" = .ok oneDatabaseText.toUTF8 :=
    FileTree.read_of_find? (by decide) (by decide) (by decide) (by decide) (by decide) rfl
  have htext : Config.ofText? oneDatabaseText = some oneDatabase := by
    rw [Config.ofText?, oneDatabaseText, Sql.toList_of_eq_ofList rfl]
    decide +kernel
  have hread : Config.ofYamlOver oneDatabaseText calm.environment = .ok oneDatabase := by
    rw [Config.ofYamlOver, Config.ofYaml, htext]
    rfl
  rw [hfile]
  exact Config.load_eq_ok hread (Config.validate_eq_ok.mp (by decide +kernel))

theorem effective_threePages : Program.Effective threePagesWords calm.environment oneDatabaseFiles
    threePagesArguments (threePagesArguments.command.over oneDatabase) :=
  ⟨ofWords_threePagesWords, oneDatabase, load_oneDatabase, rfl⟩

theorem copyPage_mem_oneDatabase : (⟨"v3", .copyPage "v2db_public_blocks" 0⟩ : Executed) ∈
    (Program.run threePagesWords calm oneDatabaseFiles).state.executed := by
  let c : Config := threePagesArguments.command.over oneDatabase
  let v3 : Connection := ⟨willingServer, "v3", false⟩
  let pages : BlockRange := ⟨0, 3, by decide, by decide⟩
  have hc : c.Valid := Config.validate_eq_ok.mp (by decide +kernel)
  have hdb : Program.ComesTo calm (Program.connectBoth c) ⟨v3, v3⟩ := by
    have hmode : SslMode.ofText "disable" = .ok .disable := by decide +kernel
    exact Program.comesTo_connectBoth
      (Connection.result_connect_eq_ok.mpr ⟨rfl, .disable, hmode, rfl, rfl⟩)
      (Connection.result_connect_eq_ok.mpr ⟨rfl, .disable, hmode, rfl, rfl⟩)
  obtain ⟨file, opened, hopen⟩ : ∃ file opened,
      (GapFile.create "" "v2db_public_blocks" 0).run.run oneDatabaseFiles = (.ok file, opened) :=
    GapFile.exists_create (by decide) (by decide) (by decide) (by decide) (by decide)
  have hsegments (lookUp : String → Except MigrationError UInt64) :
      ({ maxPage := 3 } : TransferConfig).segments lookUp = .ok [pages] := by
    have hcut : segment 1000 0 3 = .ok [pages] := by
      rw [segment, if_neg (by decide), dif_pos (by decide), segmentFrom]
      rfl
    rw [TransferConfig.segments, if_neg (by decide), if_neg (by decide)]
    dsimp only [bind, Except.bind]
    rw [hcut]
    rfl
  refine Program.executed_run_transfer ofWords_threePagesWords rfl load_oneDatabase rfl
    fun s hfiles hplace => ?_
  rw [← hfiles] at hopen
  refine Program.executed_of_transfer hc hplace hdb hopen (hsegments _) ?_
  decide +kernel

/-- A configuration for logs with two databases. -/
def twoDatabases : Config where
  old := { host := "h", database := "v2", user := "u" }
  new := { host := "h", database := "v3", user := "u" }
  migration := { tables := ["logs"] }

/-- The transfer within one database is configured with log repair only. A migration of logs that
starts its pool has two databases, and one database would not do for it. -/
theorem databases_apart_examples :
    (threePagesArguments.command.over oneDatabase).OnlyRepairs ∧ twoDatabases.Apart ∧
      ¬ twoDatabases.joined.Valid := by
  have htwo : twoDatabases.Valid := Config.validate_eq_ok.mp (by decide +kernel)
  have hlogs : twoDatabases.migration.tableNames = .ok [.logs] := by decide +kernel
  have hpages := databases_apart threePagesWords calm oneDatabaseFiles
  refine ⟨?_, ?_, fun hjoined => ?_⟩
  · obtain ⟨a, c, ⟨hwords, loaded, hload, rfl⟩, -, h⟩ := hpages.1 _ copyPage_mem_oneDatabase trivial
    cases ofWords_threePagesWords.symm.trans hwords
    cases load_oneDatabase.symm.trans hload
    rcases h with ⟨o, tables, t, hcommand, -⟩ | ⟨o, -, -, h⟩
    · cases hcommand
    · exact h.resolve_left (by rintro (h | h | h) <;> exact h rfl)
  · have hrun : logsWaiting.run? [.startTable] = some logsStarted := by
      rw [MigrationRun.run?, startTable_logsWaiting]
      rfl
    exact (hpages.2.1 twoDatabases [.logs] htwo hlogs _ _ _ _ _ hrun
      (.begun ⟨1, [], false⟩ .logs (some 1) true) (by decide)).2 (by decide)
  · obtain ⟨tables, htables, -, hall⟩ := (hpages.2.2 twoDatabases htwo).mp hjoined
    cases hlogs.symm.trans htables
    exact absurd (hall .logs List.mem_cons_self) (by decide)

/-- **A transfer may copy within one database.** The check lets it pass because the tables that are
configured are only log repair, although a transfer has no use for them. -/
theorem transfer_within_database :
    ∃ a c, Program.Effective threePagesWords calm.environment oneDatabaseFiles a c ∧
      (∃ o, a.command = .transfer o) ∧ c.validate = .ok () ∧ ¬ c.Apart ∧
      ⟨"v3", .copyPage "v2db_public_blocks" 0⟩ ∈
        (Program.run threePagesWords calm oneDatabaseFiles).state.executed := by
  refine ⟨_, _, effective_threePages, ⟨_, rfl⟩, by decide +kernel, ?_, copyPage_mem_oneDatabase⟩
  rintro (h | h | h) <;> exact h rfl

end ChainMigration
