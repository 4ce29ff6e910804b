import ChainMigration.Proofs.Settings

/-! # Settings under variables

Laying variables over a configuration gives every setting the value of its variable and keeps the
others (`Environment.Laid`), or it is refused because of the first variable that cannot be read.
`Environment.Lays` says both of a step, and steps put together do what their parts do
(`Environment.Lays.bind`). Since the settings are the whole configuration, all else follows from
that alone: laying the same variables once more changes nothing, and laying two environments one
after the other is laying the later one over the earlier one (`Config.overlay_exact`). -/

namespace ChainMigration

variable {α β φ : Type} {env env' : Environment} {v : Variable} {vs ws : List Variable}

namespace Environment

/-! ### One variable -/

/-- The variable is not set, or its text can be read. -/
def Readable (env : Environment) (v : Variable) : Prop :=
  ∀ value, env v.name = some value → ∃ x, v.kind.Reads value x

/-- What is wrong with the variable. -/
def fault? (env : Environment) (v : Variable) : Option ConfigError :=
  match env v.name with
  | none => none
  | some value =>
    match v.kind.read value with
    | .ok _ => none
    | .error reason => some (.variable v.name value reason)

theorem fault?_eq_some_iff {e : ConfigError} : env.fault? v = some e ↔
    ∃ value reason, env v.name = some value ∧ v.kind.read value = .error reason ∧
      e = .variable v.name value reason := by
  unfold fault?
  cases env v.name with
  | none => exact iff_of_false (by rintro ⟨⟩) (by rintro ⟨_, _, ⟨⟩, _⟩)
  | some value =>
    simp only [Option.some.injEq, exists_and_left, exists_eq_left']
    cases v.kind.read value with
    | ok x => exact iff_of_false (by rintro ⟨⟩) (by rintro ⟨_, ⟨⟩, _⟩)
    | error reason => simp only [Option.some.injEq, Except.error.injEq, exists_eq_left', eq_comm]

theorem fault?_eq_none_iff : env.fault? v = none ↔ env.Readable v := by
  unfold fault? Readable
  cases env v.name with
  | none => exact iff_of_true rfl nofun
  | some value =>
    simp only [Option.some.injEq, forall_eq', ← VariableKind.read_eq_ok]
    cases v.kind.read value with
    | ok x => exact iff_of_true rfl ⟨x, rfl⟩
    | error reason => exact iff_of_false nofun nofun

/-- **The variable is laid over the value of a setting**: if it is set, the value is what its text
is read as; else it is what it was. -/
structure Gives (env : Environment) (v : Variable) (before after : SettingValue) : Prop where
  unset : env v.name = none → after = before
  set : ∀ value, env v.name = some value → v.kind.Reads value after

theorem gives_text (name setting : String) :
    env.Gives ⟨name, .text⟩ (.text setting) (.text (env.text name setting)) := by
  refine ⟨fun h => ?_, fun value h => ?_⟩
  · rw [text, show env name = none from h, Option.getD_none]
  · rw [text, show env name = some value from h]
    rfl

theorem gives_textOr (name : String) (setting : Option String) :
    env.Gives ⟨name, .text⟩ (.ofText? setting) (.ofText? (env.textOr name setting)) := by
  refine ⟨fun h => ?_, fun value h => ?_⟩
  · rw [textOr, show env name = none from h, Option.none_or]
  · rw [textOr, show env name = some value from h]
    rfl

theorem gives_list (name : String) (setting : List String) :
    env.Gives ⟨name, .list⟩ (.texts setting)
      (.texts (((env name).map listItems).getD setting)) := by
  refine ⟨fun h => ?_, fun value h => ?_⟩
  · rw [show env name = none from h]
    rfl
  · rw [show env name = some value from h]
    exact VariableKind.read_eq_ok.mp rfl

theorem Gives.unique {x y z : SettingValue} (hy : env.Gives v x y) (hz : env.Gives v x z) :
    y = z := by
  cases h : env v.name with
  | none => rw [hy.unset h, hz.unset h]
  | some value => exact (hy.set value h).unique (hz.set value h)

theorem Gives.congr {x y : SettingValue} (h : env.Gives v x y) (hname : env v.name = env' v.name) :
    env'.Gives v x y :=
  ⟨fun h' => h.unset (hname.trans h'), fun value h' => h.set value (hname.trans h')⟩

/-! ### Steps -/

/-- **The variables are laid over a record**: its settings have the values of those that are set,
and all else is what it was. -/
structure Laid (env : Environment) (settings : List (Setting α)) (fixed : α → φ) (a a' : α) :
    Prop where
  gives : ∀ s ∈ settings, env.Gives s.toVariable (s.value a) (s.value a')
  fixed : fixed a' = fixed a

/-- **A step that reads variables**: it fails with the fault of the first one that is at fault, and
else it comes to a result as it should. -/
structure Lays (env : Environment) (vs : List Variable) (P : α → Prop) (x : Except ConfigError α) :
    Prop where
  ok : ∀ a, x = .ok a → P a
  error : ∀ e, x = .error e ↔ vs.findSome? env.fault? = some e

namespace Lays

variable {P : α → Prop} {Q : β → Prop} {x : Except ConfigError α} {f : α → Except ConfigError β}

theorem pure {a : α} (h : P a) : env.Lays [] P (Except.ok a) where
  ok _ ha := Except.ok.inj ha ▸ h
  error _ := iff_of_false nofun nofun

theorem findSome?_of_ok (h : env.Lays vs P x) {a : α} (ha : x = .ok a) :
    vs.findSome? env.fault? = none := by
  refine Option.eq_none_iff_forall_ne_some.mpr fun e he => ?_
  cases ha.symm.trans ((h.error e).mpr he)

/-- **Steps put together** read the variables of both. -/
theorem bind (hx : env.Lays vs P x) (hf : ∀ a, P a → env.Lays ws Q (f a)) :
    env.Lays (vs ++ ws) Q (x >>= f) := by
  cases hresult : x with
  | error reason =>
    have hfault := (hx.error reason).mp hresult
    refine ⟨nofun, fun e => ?_⟩
    rw [List.findSome?_append, hfault, Option.some_or]
    exact ⟨fun h => congrArg some (Except.error.inj h), fun h => congrArg _ (Option.some.inj h)⟩
  | ok a =>
    have hnext := hf a (hx.ok a hresult)
    refine ⟨hnext.ok, fun e => ?_⟩
    rw [List.findSome?_append, hx.findSome?_of_ok hresult, Option.none_or]
    exact hnext.error e

theorem exists_ok_iff (h : env.Lays vs P x) :
    (∃ a, x = .ok a) ↔ ∀ v ∈ vs, env.Readable v := by
  simp only [← fault?_eq_none_iff]
  rw [← List.findSome?_eq_none_iff]
  cases hx : x with
  | ok a => exact iff_of_true ⟨a, rfl⟩ (h.findSome?_of_ok hx)
  | error e =>
    rw [(h.error e).mp hx]
    exact iff_of_false nofun nofun

theorem error_iff (h : env.Lays vs P x) {e : ConfigError} : x = .error e ↔
    ∃ before v after value reason, vs = before ++ v :: after ∧ (∀ u ∈ before, env.Readable u) ∧
      env v.name = some value ∧ v.kind.read value = .error reason ∧
      e = .variable v.name value reason := by
  rw [h.error, List.findSome?_eq_some_iff]
  simp only [fault?_eq_some_iff, fault?_eq_none_iff]
  constructor
  · rintro ⟨before, v, after, hvs, ⟨value, reason, hfault⟩, hbefore⟩
    exact ⟨before, v, after, value, reason, hvs, hbefore, hfault⟩
  · rintro ⟨before, v, after, value, reason, hvs, hbefore, hfault⟩
    exact ⟨before, v, after, hvs, ⟨value, reason, hfault⟩, hbefore⟩

theorem overlay {read : String → Except VariableFault α} {value : α → SettingValue} (v : Variable)
    (setting : α) (hread : ∀ text, (read (Text.trim text)).map value = v.kind.read text) :
    env.Lays [v] (fun a => env.Gives v (value setting) (value a))
      (env.overlay v.name read setting) := by
  refine ⟨fun a ha => ?_, fun e => ?_⟩
  · unfold Environment.overlay at ha
    refine ⟨fun h => ?_, fun text h => ?_⟩
    · rw [h] at ha
      rw [Except.ok.inj ha]
    · rw [h] at ha
      exact VariableKind.read_eq_ok.mp
        ((hread text).symm.trans (map_eq_ok.mpr ⟨a, mapError_eq_ok.mp ha, rfl⟩))
  · rw [List.findSome?_singleton, fault?_eq_some_iff]
    unfold Environment.overlay
    cases env v.name with
    | none => exact iff_of_false nofun (by rintro ⟨_, _, ⟨⟩, _⟩)
    | some text =>
      constructor
      · intro h
        obtain ⟨reason, hreason, rfl⟩ := mapError_eq_error.mp h
        exact ⟨text, reason, rfl, (hread text).symm.trans (map_eq_error.mpr hreason), rfl⟩
      · rintro ⟨_, reason, ⟨⟩, hreason, rfl⟩
        exact mapError_eq_error.mpr ⟨reason, map_eq_error.mp ((hread text).trans hreason), rfl⟩

end Lays

/-! ### Readers -/

theorem read_number {last : Nat} (ofNat : Nat → α) (value : α → SettingValue)
    (h : ∀ n ≤ last, value (ofNat n) = .number n) (text : String) :
    (do return ofNat (← (Text.readUnsigned (last + 1) (Text.trim text).toList).mapError .number) :
      Except VariableFault α).map value = (VariableKind.number last).read text := by
  rw [VariableKind.read]
  cases hread : Text.readUnsigned (last + 1) (Text.trim text).toList with
  | error reason => rfl
  | ok n =>
    have hlt := ((Text.readUnsigned_eq_ok_iff (Nat.succ_pos last)).mp hread).2
    exact congrArg Except.ok (h n (Nat.le_of_lt_succ hlt))

theorem read_port (text : String) :
    (port (Text.trim text)).map (fun n => .number n.toNat) = VariableKind.port.read text :=
  read_number UInt16.ofNat (fun n => .number n.toNat)
    (fun _ h => congrArg _ (UInt16.toNat_ofNat_of_lt' (Nat.lt_succ_of_le h))) text

theorem read_word (text : String) :
    (word (Text.trim text)).map (fun n => .number n.toNat) = VariableKind.word.read text :=
  read_number UInt64.ofNat (fun n => .number n.toNat)
    (fun _ h => congrArg _ (UInt64.toNat_ofNat_of_lt' (Nat.lt_succ_of_le h))) text

theorem read_wordOr (text : String) :
    (wordOr (Text.trim text)).map .ofWord? = VariableKind.word.read text := by
  rw [← read_word, wordOr]
  cases word (Text.trim text) <;> rfl

end Environment

/-! ### Sections -/

open Environment

theorem DatabaseConfig.lays_overlay (db : DatabaseConfig) (scope : String) (env : Environment) :
    env.Lays [⟨scope ++ "_PORT", .port⟩, ⟨scope ++ "_MAX_OPEN_CONNECTIONS", .word⟩]
      (env.Laid (overlaid scope) fixed db) (db.overlay scope env) := by
  unfold overlay
  refine (Lays.overlay ⟨scope ++ "_PORT", .port⟩ db.port read_port).bind fun port hport =>
    (Lays.overlay ⟨scope ++ "_MAX_OPEN_CONNECTIONS", .word⟩ db.maxConnections read_wordOr).bind
      fun maxConnections hmax => .pure ⟨?_, rfl⟩
  simp only [overlaid, List.forall_mem_cons]
  exact ⟨gives_text _ _, gives_text _ _, hport, gives_text _ _, gives_text _ _, hmax,
    List.forall_mem_nil _⟩

theorem MigrationConfig.lays_overlay (m : MigrationConfig) (env : Environment) :
    env.Lays [⟨"MIGRATION_START", .word⟩, ⟨"MIGRATION_STOP", .word⟩,
        ⟨"MIGRATION_WORKERS_PER_TABLE", .word⟩, ⟨"MIGRATION_AUTO_RANGE", .truth⟩,
        ⟨"MIGRATION_AUTO_RANGE_SEGMENT_SIZE", .word⟩]
      (env.Laid overlaid fixed m) (m.overlay env) := by
  unfold overlay
  refine (Lays.overlay ⟨"MIGRATION_START", .word⟩ m.start read_wordOr).bind fun start hstart =>
    (Lays.overlay ⟨"MIGRATION_STOP", .word⟩ m.stop read_wordOr).bind fun stop hstop =>
    (Lays.overlay ⟨"MIGRATION_WORKERS_PER_TABLE", .word⟩ m.workersPerTable read_wordOr).bind
      fun workers hworkers =>
    (Lays.overlay ⟨"MIGRATION_AUTO_RANGE", .truth⟩ m.autoRange fun _ => rfl).bind
      fun autoRange hauto =>
    (Lays.overlay ⟨"MIGRATION_AUTO_RANGE_SEGMENT_SIZE", .word⟩ m.segmentSize read_wordOr).bind
      fun segmentSize hsize => .pure ⟨?_, rfl⟩
  simp only [overlaid, List.forall_mem_cons]
  exact ⟨hstart, hstop, gives_list _ _, hworkers, hauto, hsize, List.forall_mem_nil _⟩

theorem TransferConfig.lays_overlay (t : TransferConfig) (env : Environment) :
    env.Lays [⟨"TRANSFER_SEGMENT_SIZE", .word⟩] (env.Laid overlaid fixed t) (t.overlay env) := by
  unfold overlay
  refine (Lays.overlay ⟨"TRANSFER_SEGMENT_SIZE", .word⟩ t.segmentSize read_word).bind
    fun segmentSize hsize => .pure ⟨?_, rfl⟩
  simp only [overlaid, List.forall_mem_cons]
  exact ⟨gives_text _ _, hsize, List.forall_mem_nil _⟩

theorem LogConfig.gives_overlay (l : LogConfig) (env : Environment) :
    ∀ s ∈ overlaid, env.Gives s.toVariable (s.value l) (s.value (l.overlay env)) := by
  simp only [overlaid, List.forall_mem_cons]
  exact ⟨gives_text _ _, gives_text _ _, gives_text _ _, gives_textOr _ _, gives_textOr _ _,
    List.forall_mem_nil _⟩

namespace Config

/-- **Laying variables over a configuration** reads them in order and lays them over its
settings. -/
theorem lays_overlay (c : Config) (env : Environment) :
    env.Lays parsed (env.Laid overlaid fixed c) (c.overlay env) := by
  have hlays := (c.old.lays_overlay "OLD_DATABASE" env).bind fun old hold =>
    (c.new.lays_overlay "NEW_DATABASE" env).bind fun new hnew =>
    (c.migration.lays_overlay env).bind fun migration hmigration =>
    (c.transfer.lays_overlay env).bind fun transfer htransfer =>
    have hlaid : env.Laid overlaid fixed c ⟨old, new, migration, transfer, c.log.overlay env⟩ := by
      refine ⟨forall_mem_overlaid.mpr ⟨hold.gives, hnew.gives, hmigration.gives, htransfer.gives,
        c.log.gives_overlay env⟩, ?_⟩
      rw [fixed, fixed, hold.fixed, hnew.fixed, hmigration.fixed, htransfer.fixed]
    Lays.pure hlaid
  -- The variables that the steps read, put together, are the ones that are parsed.
  exact hlays

/-- The variables decide the configuration. -/
theorem laid_unique {c a b : Config} (ha : env.Laid overlaid fixed c a)
    (hb : env.Laid overlaid fixed c b) : a = b :=
  eq_of_overlaid (fun s hs => (ha.gives s hs).unique (hb.gives s hs))
    (ha.fixed.trans hb.fixed.symm)

variable {c c' : Config}

theorem overlay_eq_ok : c.overlay env = .ok c' ↔
    (∀ v ∈ parsed, env.Readable v) ∧ env.Laid overlaid fixed c c' := by
  have hlays := lays_overlay c env
  constructor
  · exact fun h => ⟨hlays.exists_ok_iff.mp ⟨c', h⟩, hlays.ok c' h⟩
  · rintro ⟨hreadable, hlaid⟩
    obtain ⟨a, ha⟩ := hlays.exists_ok_iff.mpr hreadable
    rw [ha, laid_unique (hlays.ok a ha) hlaid]

end Config

/-! ### Databases apart -/

/-- A database under variables depends on no others than its own. -/
theorem DatabaseConfig.eq_of_agree {scope : String} {db a b : DatabaseConfig}
    (ha : env.Laid (overlaid scope) fixed db a) (hb : env'.Laid (overlaid scope) fixed db b)
    (h : ∀ s ∈ overlaid scope, env s.name = env' s.name) : a = b :=
  eq_of_overlaid (fun s hs => ((ha.gives s hs).congr (h s hs)).unique (hb.gives s hs))
    (ha.fixed.trans hb.fixed.symm)

namespace Environment.Laid

variable {c c' : Config}

theorem old (h : env.Laid Config.overlaid Config.fixed c c') :
    env.Laid (DatabaseConfig.overlaid "OLD_DATABASE") DatabaseConfig.fixed c.old c'.old where
  gives := (Config.forall_mem_overlaid.mp h.gives).1
  fixed := congrArg (·.1) h.fixed

theorem new (h : env.Laid Config.overlaid Config.fixed c c') :
    env.Laid (DatabaseConfig.overlaid "NEW_DATABASE") DatabaseConfig.fixed c.new c'.new where
  gives := (Config.forall_mem_overlaid.mp h.gives).2.1
  fixed := congrArg (·.2.1) h.fixed

end Environment.Laid

theorem not_old_of_mem_new :
    ∀ s ∈ DatabaseConfig.overlaid "NEW_DATABASE", ¬ "OLD_".toList <+: s.name.toList := by
  decide

theorem not_new_of_mem_old :
    ∀ s ∈ DatabaseConfig.overlaid "OLD_DATABASE", ¬ "NEW_".toList <+: s.name.toList := by
  decide

/-! ### Two environments -/

namespace Environment

/-- One environment laid over another one. -/
def laidOver (later env : Environment) : Environment := fun name => (later name).or (env name)

variable {later : Environment}

theorem laidOver_of_none {name : String} (h : later name = none) :
    later.laidOver env name = env name := by
  rw [laidOver, h, Option.none_or]

theorem laidOver_of_some {name value : String} (h : later name = some value) :
    later.laidOver env name = some value := by
  rw [laidOver, h, Option.some_or]

theorem Readable.laidOver (hlater : later.Readable v) (h : env.Readable v) :
    (later.laidOver env).Readable v := by
  intro value hvalue
  cases hname : later v.name with
  | none => exact h value ((laidOver_of_none hname).symm.trans hvalue)
  | some text =>
    cases (laidOver_of_some hname).symm.trans hvalue
    exact hlater _ hname

theorem Gives.laidOver {x y z : SettingValue} (h : env.Gives v x y) (hlater : later.Gives v y z) :
    (later.laidOver env).Gives v x z := by
  cases hname : later v.name with
  | none =>
    rw [hlater.unset hname]
    exact h.congr (laidOver_of_none hname).symm
  | some text =>
    refine ⟨fun hvalue => ?_, fun value hvalue => ?_⟩
    · cases (laidOver_of_some hname).symm.trans hvalue
    · cases (laidOver_of_some hname).symm.trans hvalue
      exact hlater.set _ hname

theorem Laid.laidOver {settings : List (Setting α)} {fixed : α → φ} {a b a' : α}
    (h : env.Laid settings fixed a b) (hlater : later.Laid settings fixed b a') :
    (later.laidOver env).Laid settings fixed a a' where
  gives s hs := (h.gives s hs).laidOver (hlater.gives s hs)
  fixed := hlater.fixed.trans h.fixed

/-- What has been laid over a record once is there. -/
theorem Laid.again {settings : List (Setting α)} {fixed : α → φ} {a b : α}
    (h : env.Laid settings fixed a b) : env.Laid settings fixed b b where
  gives s hs := ⟨fun _ => rfl, (h.gives s hs).set⟩
  fixed := rfl

end Environment

namespace Config

variable {c c' : Config} {later : Environment}

theorem overlay_again (h : c.overlay env = .ok c') : c'.overlay env = .ok c' := by
  obtain ⟨hreadable, hlaid⟩ := overlay_eq_ok.mp h
  exact overlay_eq_ok.mpr ⟨hreadable, hlaid.again⟩

/-- **Laying one environment after another** is laying it over the other one. -/
theorem overlay_laidOver (h : c.overlay env = .ok c') (later : Environment) :
    c'.overlay later = c.overlay (later.laidOver env) := by
  obtain ⟨hreadable, hlaid⟩ := overlay_eq_ok.mp h
  cases hresult : c'.overlay later with
  | ok c'' =>
    obtain ⟨hreadable', hlaid'⟩ := overlay_eq_ok.mp hresult
    exact (overlay_eq_ok.mpr
      ⟨fun v hv => (hreadable' v hv).laidOver (hreadable v hv), hlaid.laidOver hlaid'⟩).symm
  | error e =>
    -- The earlier variables can all be read, so the first at fault is one of the later ones.
    obtain ⟨before, v, after, value, reason, hvs, hbefore, hset, hread, rfl⟩ :=
      (lays_overlay c' later).error_iff.mp hresult
    have hbefore' (u : Variable) (hu : u ∈ before) : (later.laidOver env).Readable u :=
      (hbefore u hu).laidOver (hreadable u (hvs ▸ List.mem_append_left _ hu))
    exact ((lays_overlay c (later.laidOver env)).error_iff.mpr
      ⟨before, v, after, value, reason, hvs, hbefore', laidOver_of_some hset, hread, rfl⟩).symm

/-- **Variables are an overlay.** They can be laid over a configuration if and only if every number
and every truth value among them that is set can be read without the blanks around it. Else the
error is that of the first one that cannot, in a fixed order. If they can, every setting whose
variable is set has its value and all others are what they were; variables of the old database never
reach the new one, nor the other way round. So laying the same variables over the result changes
nothing, and laying others over it is laying those over the first ones, in the configuration as in
the error. -/
theorem overlay_exact (c : Config) (env : Environment) :
    ((∃ c', c.overlay env = .ok c') ↔ ∀ v ∈ parsed, env.Readable v) ∧
    (∀ e, c.overlay env = .error e ↔
      ∃ before v after value reason, parsed = before ++ v :: after ∧
        (∀ u ∈ before, env.Readable u) ∧ env v.name = some value ∧
        v.kind.read value = .error reason ∧ e = .variable v.name value reason) ∧
    (∀ c', c.overlay env = .ok c' ↔
      (∀ v ∈ parsed, env.Readable v) ∧ env.Laid overlaid fixed c c') ∧
    ∀ c', c.overlay env = .ok c' →
      (∀ other c'', c.overlay other = .ok c'' →
        ((∀ name, ¬ "OLD_".toList <+: name.toList → env name = other name) → c'.new = c''.new) ∧
        ((∀ name, ¬ "NEW_".toList <+: name.toList → env name = other name) → c'.old = c''.old)) ∧
      c'.overlay env = .ok c' ∧ ∀ later, c'.overlay later = c.overlay (later.laidOver env) := by
  have hlays := lays_overlay c env
  refine ⟨hlays.exists_ok_iff, fun e => hlays.error_iff, fun c' => overlay_eq_ok, fun c' h =>
    ⟨fun other c'' h' => ?_, overlay_again h, overlay_laidOver h⟩⟩
  have hlaid := (overlay_eq_ok.mp h).2
  have hlaid' := (overlay_eq_ok.mp h').2
  constructor
  · exact fun hagree => DatabaseConfig.eq_of_agree hlaid.new hlaid'.new fun s hs =>
      hagree s.name (not_old_of_mem_new s hs)
  · exact fun hagree => DatabaseConfig.eq_of_agree hlaid.old hlaid'.old fun s hs =>
      hagree s.name (not_new_of_mem_old s hs)

/-- A configuration of defaults. -/
def defaults : Config where
  old := {}
  new := {}

/-- A variable that sets a list of tables. -/
def tablesSet : Environment
  | "MIGRATION_TABLE_NAMES" => some "logs, ,headers"
  | _ => none

/-- The same, and a port with blanks around it. -/
def portSet : Environment
  | "NEW_DATABASE_PORT" => some " 6432\n"
  | name => tablesSet name

/-- Variables that set a port and no truth value. -/
def answerSet : Environment
  | "OLD_DATABASE_PORT" => some "5433"
  | "MIGRATION_AUTO_RANGE" => some "yes"
  | _ => none

/-- The port and the tables are set, the old database is as without the port, and setting them again
changes nothing. The variables with the wrong truth value are refused afterwards as they are
together with the others. -/
theorem defaults_overlaid :
    ∃ c' c'', defaults.overlay portSet = .ok c' ∧ defaults.overlay tablesSet = .ok c'' ∧
      c'.new.port = 6432 ∧ c'.migration.tables = ["logs", "headers"] ∧ c'.old = c''.old ∧
      c'.overlay portSet = .ok c' ∧
      c'.overlay answerSet = defaults.overlay (answerSet.laidOver portSet) ∧
      c'.overlay answerSet = .error (.variable "MIGRATION_AUTO_RANGE" "yes" .bool) := by
  have hport : defaults.overlay portSet = .ok { defaults with
      new := { port := 6432 }
      migration := { tables := ["logs", "headers"] } } := by rfl
  have htables : defaults.overlay tablesSet = .ok { defaults with
      migration := { tables := ["logs", "headers"] } } := by rfl
  obtain ⟨hapart, hagain, hlater⟩ := (overlay_exact defaults portSet).2.2.2 _ hport
  have hagree (name : String) (h : ¬ "NEW_".toList <+: name.toList) :
      portSet name = tablesSet name := by
    unfold portSet
    split
    · exact absurd (by decide) h
    · rfl
  exact ⟨_, _, hport, htables, rfl, rfl, (hapart _ _ htables).2 hagree, hagain, hlater _, by rfl⟩

end Config

end ChainMigration
