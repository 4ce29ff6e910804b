import ChainMigration.Config.Overlay
import ChainMigration.Proofs.Decimal
import ChainMigration.Proofs.Except

/-! # Settings and their variables

A setting that a variable can be laid over has the name of the variable, the kind of its text and
its value in a configuration (`Setting`). What a text is read as is told by its kind
(`VariableKind.Reads`), and reading finds just that (`VariableKind.read_eq_ok`). `Config.overlaid`
lists the settings in the order in which their variables are read; with those that have no variable
(`Config.fixed`) they are the whole configuration (`Config.eq_of_overlaid`). -/

namespace ChainMigration

/-! ### Variables and settings -/

/-- The value of a setting. -/
inductive SettingValue
  | unset
  | text (value : String)
  | texts (values : List String)
  | number (value : Nat)
  | truth (value : Bool)
deriving DecidableEq

namespace SettingValue

/-- The value of a text that may be unset. -/
def ofText? : Option String → SettingValue
  | none => .unset
  | some value => .text value

/-- The value of a number that may be unset. -/
def ofWord? : Option UInt64 → SettingValue
  | none => .unset
  | some n => .number n.toNat

theorem ofText?_inj {a b : Option String} (h : ofText? a = ofText? b) : a = b := by
  cases a <;> cases b <;> cases h <;> rfl

theorem ofWord?_inj {a b : Option UInt64} (h : ofWord? a = ofWord? b) : a = b := by
  cases a with
  | none => cases b <;> cases h; rfl
  | some m =>
    cases b with
    | none => cases h
    | some n => rw [UInt64.toNat_inj.mp (number.inj h)]

end SettingValue

/-- What the text of a variable is read as. -/
inductive VariableKind
  | text
  | list
  /-- A number up to the last one. -/
  | number (last : Nat)
  | truth
deriving DecidableEq

namespace VariableKind

/-- A number of 16 bits. -/
def port : VariableKind := number 0xFFFF

/-- A number of 64 bits. -/
def word : VariableKind := number 0xFFFF_FFFF_FFFF_FFFF

/-- A text may be none of this kind. -/
def isParsed : VariableKind → Bool
  | text | list => false
  | number _ | truth => true

/-- **The text is read as the value**: a text as itself, a list as its items between commas without
the blanks around them, of which the empty ones are dropped, and a number or a truth value as what
the text without the blanks around it denotes. -/
def Reads : VariableKind → String → SettingValue → Prop
  | text, value, x => x = .text value
  | list, value, x => ∃ items : List String, items.map String.toList =
      ((value.toList.splitOn ',').map Text.trimmed).filter (· ≠ []) ∧ x = .texts items
  | number last, value, x =>
    ∃ n ≤ last, Text.Denotes (Text.trimmed value.toList) n ∧ x = .number n
  | truth, value, x => ∃ b : Bool, Text.trim value = toString b ∧ x = .truth b

/-- Reads the text of a variable. -/
def read : VariableKind → String → Except VariableFault SettingValue
  | text, value => .ok (.text value)
  | list, value => .ok (.texts (Environment.listItems value))
  | number last, value =>
    ((Text.readUnsigned (last + 1) (Text.trim value).toList).mapError .number).map .number
  | truth, value => (Environment.bool (Text.trim value)).map .truth

theorem map_toList_listItems (value : String) : (Environment.listItems value).map String.toList =
    ((value.toList.splitOn ',').map Text.trimmed).filter (· ≠ []) := by
  rw [Environment.listItems]
  generalize (value.toList.splitOn ',').map Text.trimmed = items
  induction items with
  | nil => rfl
  | cons item items ih =>
    rw [List.filterMap_cons, List.filter_cons]
    by_cases hitem : item = []
    · simp only [hitem, ↓reduceIte, ih, ne_eq, not_true_eq_false, decide_false, Bool.false_eq_true]
    · simp only [hitem, ↓reduceIte, List.map_cons, String.toList_ofList, ih, ne_eq,
        not_false_eq_true, decide_true]

theorem bool_eq_ok_iff {text : String} {b : Bool} :
    Environment.bool text = .ok b ↔ text = toString b := by
  unfold Environment.bool
  split
  · rw [Except.ok.injEq]
    cases b <;> decide
  · rw [Except.ok.injEq]
    cases b <;> decide
  · next htrue hfalse =>
    refine iff_of_false (by rintro ⟨⟩) fun h => ?_
    cases b
    · exact hfalse h
    · exact htrue h

/-- **Reading finds the value** exactly if the text is read as it. -/
theorem read_eq_ok {kind : VariableKind} {value : String} {x : SettingValue} :
    kind.read value = .ok x ↔ kind.Reads value x := by
  cases kind with
  | text => rw [read, Reads, Except.ok.injEq, eq_comm]
  | list =>
    rw [read, Reads, Except.ok.injEq, ← map_toList_listItems]
    constructor
    · rintro rfl
      exact ⟨_, rfl, rfl⟩
    · rintro ⟨items, hitems, rfl⟩
      rw [List.map_injective_iff.mpr (fun _ _ => String.toList_inj.mp) hitems]
  | number last =>
    rw [read, Reads, map_eq_ok, Text.trim, String.toList_ofList]
    refine exists_congr fun n => ?_
    rw [mapError_eq_ok, Text.readUnsigned_eq_ok_iff (Nat.succ_pos last), Nat.lt_succ_iff]
    constructor
    · rintro ⟨⟨hn, hlt⟩, rfl⟩
      exact ⟨hlt, hn, rfl⟩
    · rintro ⟨hlt, hn, rfl⟩
      exact ⟨⟨hn, hlt⟩, rfl⟩
  | truth =>
    rw [read, Reads, map_eq_ok]
    exact exists_congr fun b => and_congr bool_eq_ok_iff eq_comm

theorem Reads.unique {kind : VariableKind} {value : String} {x y : SettingValue}
    (hx : kind.Reads value x) (hy : kind.Reads value y) : x = y :=
  Except.ok.inj ((read_eq_ok.mpr hx).symm.trans (read_eq_ok.mpr hy))

end VariableKind

/-- A variable of the environment. -/
structure Variable where
  name : String
  kind : VariableKind

/-- A setting that a variable can be laid over. -/
structure Setting (α : Type) extends Variable where
  value : α → SettingValue

/-- The setting within a larger record. -/
def Setting.of {α β : Type} (part : β → α) (s : Setting α) : Setting β where
  toVariable := s.toVariable
  value b := s.value (part b)

/-! ### The settings of a configuration -/

namespace DatabaseConfig

/-- The settings that have variables, whose names begin with the scope. -/
def overlaid (scope : String) : List (Setting DatabaseConfig) :=
  [⟨⟨scope ++ "_NAME", .text⟩, fun db => .text db.database⟩,
    ⟨⟨scope ++ "_HOSTNAME", .text⟩, fun db => .text db.host⟩,
    ⟨⟨scope ++ "_PORT", .port⟩, fun db => .number db.port.toNat⟩,
    ⟨⟨scope ++ "_USER", .text⟩, fun db => .text db.user⟩,
    ⟨⟨scope ++ "_PASSWORD", .text⟩, fun db => .text db.password⟩,
    ⟨⟨scope ++ "_MAX_OPEN_CONNECTIONS", .word⟩, fun db => .ofWord? db.maxConnections⟩]

/-- The settings that have none. -/
def fixed (db : DatabaseConfig) : String × UInt64 := (db.sslMode, db.connectTimeoutSecs)

theorem eq_of_overlaid {scope : String} {a b : DatabaseConfig}
    (h : ∀ s ∈ overlaid scope, s.value a = s.value b) (hfixed : a.fixed = b.fixed) : a = b := by
  simp only [overlaid, List.forall_mem_cons, SettingValue.text.injEq, SettingValue.number.injEq,
    UInt16.toNat_inj] at h
  obtain ⟨hdatabase, hhost, hport, huser, hpassword, hmax, -⟩ := h
  obtain ⟨hssl, htimeout⟩ := Prod.mk.inj hfixed
  rw [mk.injEq]
  exact ⟨hhost, hport, hdatabase, huser, hpassword, hssl, SettingValue.ofWord?_inj hmax, htimeout⟩

end DatabaseConfig

namespace MigrationConfig

/-- The settings that have variables. -/
def overlaid : List (Setting MigrationConfig) :=
  [⟨⟨"MIGRATION_START", .word⟩, fun m => .ofWord? m.start⟩,
    ⟨⟨"MIGRATION_STOP", .word⟩, fun m => .ofWord? m.stop⟩,
    ⟨⟨"MIGRATION_TABLE_NAMES", .list⟩, fun m => .texts m.tables⟩,
    ⟨⟨"MIGRATION_WORKERS_PER_TABLE", .word⟩, fun m => .ofWord? m.workersPerTable⟩,
    ⟨⟨"MIGRATION_AUTO_RANGE", .truth⟩, fun m => .truth m.autoRange⟩,
    ⟨⟨"MIGRATION_AUTO_RANGE_SEGMENT_SIZE", .word⟩, fun m => .ofWord? m.segmentSize⟩]

/-- The settings that have none. -/
def fixed (m : MigrationConfig) : List BlockRange × Option (List String) × Bool :=
  (m.ranges, m.mustExistTables, m.gapOnAnyReadFailure)

theorem eq_of_overlaid {a b : MigrationConfig} (h : ∀ s ∈ overlaid, s.value a = s.value b)
    (hfixed : a.fixed = b.fixed) : a = b := by
  simp only [overlaid, List.forall_mem_cons, SettingValue.texts.injEq,
    SettingValue.truth.injEq] at h
  obtain ⟨hstart, hstop, htables, hworkers, hauto, hsize, -⟩ := h
  obtain ⟨hranges, hrest⟩ := Prod.mk.inj hfixed
  obtain ⟨hmust, hgap⟩ := Prod.mk.inj hrest
  rw [mk.injEq]
  exact ⟨htables, SettingValue.ofWord?_inj hworkers, hranges, SettingValue.ofWord?_inj hstart,
    SettingValue.ofWord?_inj hstop, hauto, SettingValue.ofWord?_inj hsize, hmust, hgap⟩

end MigrationConfig

namespace TransferConfig

/-- The settings that have variables. -/
def overlaid : List (Setting TransferConfig) :=
  [⟨⟨"TRANSFER_TABLE_NAME", .text⟩, fun t => .text t.tableName⟩,
    ⟨⟨"TRANSFER_SEGMENT_SIZE", .word⟩, fun t => .number t.segmentSize.toNat⟩]

/-- The settings that have none. -/
def fixed (t : TransferConfig) : UInt64 × UInt64 := (t.segmentOffset, t.maxPage)

theorem eq_of_overlaid {a b : TransferConfig} (h : ∀ s ∈ overlaid, s.value a = s.value b)
    (hfixed : a.fixed = b.fixed) : a = b := by
  simp only [overlaid, List.forall_mem_cons, SettingValue.text.injEq, SettingValue.number.injEq,
    UInt64.toNat_inj] at h
  obtain ⟨hname, hsize, -⟩ := h
  obtain ⟨hoffset, hmax⟩ := Prod.mk.inj hfixed
  rw [mk.injEq]
  exact ⟨hname, hsize, hoffset, hmax⟩

end TransferConfig

namespace LogConfig

/-- The settings, which all have variables. -/
def overlaid : List (Setting LogConfig) :=
  [⟨⟨"LOG_READ_GAPS_DIR", .text⟩, fun l => .text l.readGapsDir⟩,
    ⟨⟨"LOG_WRITE_GAPS_DIR", .text⟩, fun l => .text l.writeGapsDir⟩,
    ⟨⟨"LOG_TRANSFER_GAPS_DIR", .text⟩, fun l => .text l.transferGapsDir⟩,
    ⟨⟨"LOGRUS_LEVEL", .text⟩, fun l => .ofText? l.level⟩,
    ⟨⟨"LOGRUS_FILE", .text⟩, fun l => .ofText? l.file⟩]

theorem eq_of_overlaid {a b : LogConfig} (h : ∀ s ∈ overlaid, s.value a = s.value b) : a = b := by
  simp only [overlaid, List.forall_mem_cons, SettingValue.text.injEq] at h
  obtain ⟨hread, hwrite, htransfer, hlevel, hfile, -⟩ := h
  rw [mk.injEq]
  exact ⟨SettingValue.ofText?_inj hlevel, SettingValue.ofText?_inj hfile, hread, hwrite, htransfer⟩

end LogConfig

namespace Config

/-- The settings that have variables, in the order in which these are read. -/
def overlaid : List (Setting Config) :=
  (DatabaseConfig.overlaid "OLD_DATABASE").map (.of old) ++
    ((DatabaseConfig.overlaid "NEW_DATABASE").map (.of new) ++
      (MigrationConfig.overlaid.map (.of migration) ++
        (TransferConfig.overlaid.map (.of transfer) ++ LogConfig.overlaid.map (.of log))))

example : (overlaid.map (·.name)).Perm Config.variables := by decide

/-- The settings that have none. -/
def fixed (c : Config) : (String × UInt64) × (String × UInt64) ×
    (List BlockRange × Option (List String) × Bool) × UInt64 × UInt64 :=
  (c.old.fixed, c.new.fixed, c.migration.fixed, c.transfer.fixed)

/-- The variables whose texts can be at fault. -/
def parsed : List Variable := (overlaid.map (·.toVariable)).filter (·.kind.isParsed)

example : parsed.map (·.name) = ["OLD_DATABASE_PORT", "OLD_DATABASE_MAX_OPEN_CONNECTIONS",
    "NEW_DATABASE_PORT", "NEW_DATABASE_MAX_OPEN_CONNECTIONS", "MIGRATION_START", "MIGRATION_STOP",
    "MIGRATION_WORKERS_PER_TABLE", "MIGRATION_AUTO_RANGE", "MIGRATION_AUTO_RANGE_SEGMENT_SIZE",
    "TRANSFER_SEGMENT_SIZE"] := by
  decide

/-- A property of all settings, section by section. -/
theorem forall_mem_overlaid {P : Setting Config → Prop} : (∀ s ∈ overlaid, P s) ↔
    (∀ s ∈ DatabaseConfig.overlaid "OLD_DATABASE", P (s.of old)) ∧
    (∀ s ∈ DatabaseConfig.overlaid "NEW_DATABASE", P (s.of new)) ∧
    (∀ s ∈ MigrationConfig.overlaid, P (s.of migration)) ∧
    (∀ s ∈ TransferConfig.overlaid, P (s.of transfer)) ∧
    ∀ s ∈ LogConfig.overlaid, P (s.of log) := by
  rw [overlaid, List.forall_mem_append, List.forall_mem_append, List.forall_mem_append,
    List.forall_mem_append]
  simp only [List.forall_mem_map]

/-- **The settings are the whole configuration.** -/
theorem eq_of_overlaid {a b : Config} (h : ∀ s ∈ overlaid, s.value a = s.value b)
    (hfixed : a.fixed = b.fixed) : a = b := by
  obtain ⟨hold, hnew, hmigration, htransfer, hlog⟩ := forall_mem_overlaid.mp h
  obtain ⟨hold', hrest⟩ := Prod.mk.inj hfixed
  obtain ⟨hnew', hrest⟩ := Prod.mk.inj hrest
  obtain ⟨hmigration', htransfer'⟩ := Prod.mk.inj hrest
  rw [mk.injEq]
  exact ⟨DatabaseConfig.eq_of_overlaid hold hold', DatabaseConfig.eq_of_overlaid hnew hnew',
    MigrationConfig.eq_of_overlaid hmigration hmigration',
    TransferConfig.eq_of_overlaid htransfer htransfer', LogConfig.eq_of_overlaid hlog⟩

end Config

end ChainMigration
