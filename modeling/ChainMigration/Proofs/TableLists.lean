import ChainMigration.Proofs.FailedStart
import ChainMigration.Proofs.GapFileContents
import ChainMigration.Proofs.Spellings
import ChainMigration.Proofs.ValidConfig

/-! # Lists of tables

A list of names resolves to tables if each name is a spelling of its table and no table comes up
twice (`Resolves`). What keeps a list from resolving is the first name that is unknown or repeats an
earlier table (`FirstFault`). Every list either resolves or has a first fault
(`exists_resolves_or_fault`), and the two decide how reading it ends
(`MigrationConfig.tableNames_exact`). A run of a list that resolves has one pool and one pair of gap
files for each table (`MigrationRun.apart_of_run`). -/

namespace ChainMigration

variable {t : Table} {name : String} {names : List String} {tables seen : List Table}
  {e : MigrationError}

/-! ### Names and their tables -/

/-- **The names resolve to the tables**: each is a spelling of its table, and no table comes up
twice. -/
structure Resolves (names : List String) (tables : List Table) : Prop where
  spelled : List.Forall₂ (fun name (t : Table) => t.HasSpelling name) names tables
  nodup : tables.Nodup

/-- **The first name that does not resolve**, and the error it leads to. The names before it
resolve. -/
inductive FirstFault (names : List String) : MigrationError → Prop
  /-- The name is unknown. -/
  | unknown {before after : List String} {name : String} {earlier : List Table}
    (hnames : names = before ++ name :: after) (hbefore : Resolves before earlier)
    (hname : ∀ t : Table, ¬ t.HasSpelling name) : FirstFault names (.unknownTable name)
  /-- The name is one more spelling of an earlier table. -/
  | repeated {before after : List String} {name : String} {earlier : List Table} {t : Table}
    (hnames : names = before ++ name :: after) (hbefore : Resolves before earlier)
    (hname : t.HasSpelling name) (ht : t ∈ earlier) : FirstFault names (.config (.repeatedTable t))

theorem namedTable_of_spelling (h : t.HasSpelling name) : namedTable name = .ok t :=
  namedTable_eq_ok.mpr (Table.ofText?_eq_some_iff.mpr h)

theorem namedTable_of_unknown (h : ∀ t : Table, ¬ t.HasSpelling name) :
    namedTable name = .error (.unknownTable name) := by
  have hnone : Table.ofText? name = none :=
    Option.eq_none_iff_forall_ne_some.mpr fun t ht => h t (Table.ofText?_eq_some_iff.mp ht)
  rw [namedTable, hnone]

theorem mem_tables_iff
    (h : List.Forall₂ (fun name (t : Table) => t.HasSpelling name) names tables) :
    t ∈ tables ↔ ∃ name ∈ names, t.HasSpelling name := by
  induction h with
  | nil => exact ⟨nofun, fun ⟨_, hmem, _⟩ => nomatch hmem⟩
  | @cons name u names tables hname _ ih =>
    rw [List.mem_cons, ih, List.exists_mem_cons_iff]
    exact or_congr ⟨fun h => h ▸ hname, fun h => h.unique hname⟩ Iff.rfl

namespace Resolves

theorem nil : Resolves [] [] := ⟨.nil, .nil⟩

theorem concat (h : Resolves names tables) (hname : t.HasSpelling name) (ht : t ∉ tables) :
    Resolves (names ++ [name]) (tables ++ [t]) :=
  ⟨List.rel_append h.spelled (.cons hname .nil), List.concat_eq_append ▸ h.nodup.concat ht⟩

theorem set {i : Nat} (h : Resolves names tables) (ht : tables[i]? = some t)
    (hname : t.HasSpelling name) : Resolves (names.set i name) tables := by
  obtain ⟨hspelled, hnodup⟩ := h
  refine ⟨?_, hnodup⟩
  clear hnodup
  induction hspelled generalizing i with
  | nil => exact .nil
  | @cons _ u _ _ hfirst hrest ih =>
    cases i with
    | zero =>
      cases ht
      exact .cons hname hrest
    | succ i => exact .cons hfirst (ih ht)

end Resolves

/-- **A list of names resolves** exactly if every name is a spelling of a table and no two are
spellings of the same one. -/
theorem exists_resolves_iff : (∃ tables, Resolves names tables) ↔
    (∀ name ∈ names, ∃ t : Table, t.HasSpelling name) ∧
      names.Pairwise fun name later =>
        ∀ t : Table, ¬ (t.HasSpelling name ∧ t.HasSpelling later) := by
  induction names with
  | nil => exact iff_of_true ⟨[], .nil⟩ ⟨nofun, .nil⟩
  | cons name names ih =>
    rw [List.forall_mem_cons, List.pairwise_cons]
    constructor
    · rintro ⟨_, hspelled, hnodup⟩
      obtain ⟨t, tables, hname, hrest, rfl⟩ := List.forall₂_cons_left_iff.mp hspelled
      obtain ⟨ht, hnodup'⟩ := List.nodup_cons.mp hnodup
      obtain ⟨hknown, hapart⟩ := ih.mp ⟨tables, hrest, hnodup'⟩
      refine ⟨⟨⟨t, hname⟩, hknown⟩, fun later hlater u ⟨hu, hu'⟩ => ht ?_, hapart⟩
      rw [hname.unique hu]
      exact (mem_tables_iff hrest).mpr ⟨later, hlater, hu'⟩
    · rintro ⟨⟨⟨t, hname⟩, hknown⟩, hfirst, hapart⟩
      obtain ⟨tables, hspelled, hnodup⟩ := ih.mpr ⟨hknown, hapart⟩
      refine ⟨t :: tables, .cons hname hspelled, List.nodup_cons.mpr ⟨fun ht => ?_, hnodup⟩⟩
      obtain ⟨later, hlater, ht⟩ := (mem_tables_iff hspelled).mp ht
      exact hfirst later hlater t ⟨hname, ht⟩

/-! ### Reading a list -/

theorem FirstFault.append (h : FirstFault names e) (more : List String) :
    FirstFault (names ++ more) e := by
  cases h with
  | unknown hnames hbefore hname =>
    exact .unknown (by rw [hnames, List.append_assoc, List.cons_append]) hbefore hname
  | repeated hnames hbefore hname ht =>
    exact .repeated (by rw [hnames, List.append_assoc, List.cons_append]) hbefore hname ht

/-- **Every list resolves or has a first fault.** -/
theorem exists_resolves_or_fault (names : List String) :
    (∃ tables, Resolves names tables) ∨ ∃ e, FirstFault names e := by
  -- From the right: a fault among the names before the last one is the first of all.
  induction names using List.reverseRecOn with
  | nil => exact Or.inl ⟨[], .nil⟩
  | append_singleton names name ih =>
    obtain ⟨tables, htables⟩ | ⟨e, he⟩ := ih
    · by_cases hname : ∃ t : Table, t.HasSpelling name
      · obtain ⟨t, ht⟩ := hname
        by_cases hmem : t ∈ tables
        · exact Or.inr ⟨_, .repeated rfl htables ht hmem⟩
        · exact Or.inl ⟨_, htables.concat ht hmem⟩
      · exact Or.inr ⟨_, .unknown rfl htables (not_exists.mp hname)⟩
    · exact Or.inr ⟨e, he.append [name]⟩

namespace MigrationConfig

/-- Names that resolve are read, and their tables are there already for the names after them. -/
theorem distinctTables_append
    (h : List.Forall₂ (fun name (t : Table) => t.HasSpelling name) names tables)
    (hnodup : tables.Nodup) (hseen : ∀ t ∈ tables, t ∉ seen) (after : List String) :
    distinctTables seen (names ++ after) =
      (distinctTables (tables.reverse ++ seen) after).map (tables ++ ·) := by
  induction h generalizing seen with
  | nil =>
    show distinctTables seen after = (distinctTables seen after).map id
    cases distinctTables seen after <;> rfl
  | @cons name t names tables hname _ ih =>
    obtain ⟨ht, hnodup⟩ := List.nodup_cons.mp hnodup
    obtain ⟨hnew, hseen⟩ := List.forall_mem_cons.mp hseen
    -- The table of the first name is there already for the names after it.
    have hseen' : ∀ u ∈ tables, u ∉ t :: seen := fun u hu hmem =>
      (List.mem_cons.mp hmem).elim (fun h => ht (h ▸ hu)) (hseen u hu)
    rw [List.cons_append, distinctTables, namedTable_of_spelling hname]
    show (if t ∈ seen then _ else _) = _
    rw [if_neg hnew, ih hnodup hseen', List.reverse_cons, List.append_assoc, List.singleton_append]
    cases distinctTables (tables.reverse ++ t :: seen) after <;> rfl

theorem distinctTables_of_resolves (h : Resolves names tables) (after : List String) :
    distinctTables [] (names ++ after) =
      (distinctTables tables.reverse after).map (tables ++ ·) := by
  have hread := distinctTables_append h.spelled h.nodup (fun _ _ => List.not_mem_nil) after
  rwa [List.append_nil] at hread

variable {m : MigrationConfig}

theorem tableNames_of_resolves (h : Resolves m.tables tables) : m.tableNames = .ok tables := by
  have hread := distinctTables_of_resolves h []
  rw [List.append_nil, distinctTables, Except.map, List.append_nil] at hread
  exact hread

theorem tableNames_of_fault (h : FirstFault m.tables e) : m.tableNames = .error e := by
  rw [tableNames]
  cases h with
  | unknown hnames hbefore hname =>
    rw [hnames, distinctTables_of_resolves hbefore, distinctTables, namedTable_of_unknown hname]
    rfl
  | repeated hnames hbefore hname ht =>
    rw [hnames, distinctTables_of_resolves hbefore, distinctTables, namedTable_of_spelling hname]
    show Except.map _ (if _ then _ else _) = _
    rw [if_pos (List.mem_reverse.mpr ht)]
    rfl

theorem tableNames_eq_ok : m.tableNames = .ok tables ↔ Resolves m.tables tables := by
  refine ⟨fun h => ?_, tableNames_of_resolves⟩
  obtain ⟨tables', htables⟩ | ⟨e, he⟩ := exists_resolves_or_fault m.tables
  · rw [tableNames_of_resolves htables] at h
    cases h
    exact htables
  · rw [tableNames_of_fault he] at h
    cases h

theorem tableNames_eq_error : m.tableNames = .error e ↔ FirstFault m.tables e := by
  refine ⟨fun h => ?_, tableNames_of_fault⟩
  obtain ⟨tables, htables⟩ | ⟨e', he⟩ := exists_resolves_or_fault m.tables
  · rw [tableNames_of_resolves htables] at h
    cases h
  · rw [tableNames_of_fault he] at h
    cases h
    exact he

end MigrationConfig

/-! ### Runs of a list -/

namespace MigrationRun

variable {s : RunSetting} {e : Engine} {files : FileTree} {events : List RunEvent}
  {r : MigrationRun}

theorem nodup_of_run (hrun : (begin s e files tables).run? events = some r)
    (hnodup : tables.Nodup) : (r.jobs.map (·.table) ++ r.waiting).Nodup := by
  obtain ⟨hgood, hfailed⟩ := failed_of_run hrun
  cases hfailure : r.failure with
  | none => rwa [hgood hfailure]
  | some reason =>
    obtain ⟨hwaiting, t, rest, -, htables, -⟩ := hfailed reason hfailure
    rw [hwaiting, List.append_nil]
    rw [htables] at hnodup
    exact hnodup.of_append_left

theorem pools_of_run (hrun : (begin s e files tables).run? events = some r) :
    (r.engine.pools.drop e.pools.length).map (·.table) = r.jobs.map (·.table) := by
  have hkept := kept_of_run hrun
  refine List.ext_getElem? fun j => ?_
  rw [List.getElem?_map, List.getElem?_map, List.getElem?_drop]
  cases hjob : r.jobs[j]? with
  | none =>
    have hlen := List.getElem?_eq_none_iff.mp hjob
    rw [List.getElem?_eq_none (by rw [hkept.length_pools]; omega)]
    rfl
  | some job =>
    obtain ⟨pool, hpool, htable, -⟩ := (hkept.jobs j job hjob).history
    rw [hpool, Option.map_some, Option.map_some, htable]

theorem gapFiles_of_run (hrun : (begin s e files tables).run? events = some r)
    (hnodup : (r.jobs.map (·.table)).Nodup) :
    r.jobs.Pairwise fun job later =>
      ∀ kind kind', (job.gapFile kind).place ≠ (later.gapFile kind').place := by
  have hfiled := filed_of_run hrun
  refine List.Pairwise.imp_of_mem ?_ (List.pairwise_map.mp hnodup)
  intro job later hjob hlater hne kind kind' hsame
  rw [(hfiled.place job hjob kind).1, (hfiled.place later hlater kind').1] at hsame
  exact hne (gapPlace_eq_iff.mp hsame).2

end MigrationRun

/-- **Lists of tables resolve completely and without duplicates.** A list is read if and only if
every name in it, without the blanks around it and whatever the case of its ASCII letters, is one of
the listed spellings, and no two names are spellings of the same table. The result has one table for
each name, in order and all different, and it stays the same if a name is replaced by another
spelling of its table. Else the error is that of the first name that is unknown, which it quotes, or
that repeats an earlier table, which it names. So a run of the list has one pool for each table that
it has started, starts no table again, and has different gap files for different tables. -/
theorem MigrationConfig.tableNames_exact (m : MigrationConfig) :
    (∀ tables, m.tableNames = .ok tables ↔ Resolves m.tables tables) ∧
    ((∃ tables, m.tableNames = .ok tables) ↔
      (∀ name ∈ m.tables, ∃ t : Table, t.HasSpelling name) ∧
        m.tables.Pairwise fun name later =>
          ∀ t : Table, ¬ (t.HasSpelling name ∧ t.HasSpelling later)) ∧
    (∀ e, m.tableNames = .error e ↔ FirstFault m.tables e) ∧
    ∀ tables, m.tableNames = .ok tables →
      (∀ (i : Nat) (t : Table) (name : String), tables[i]? = some t → t.HasSpelling name →
        { m with tables := m.tables.set i name }.tableNames = .ok tables) ∧
      ∀ (s : RunSetting) (e : Engine) (files : FileTree) (events : List RunEvent)
        (r : MigrationRun), (MigrationRun.begin s e files tables).run? events = some r →
          (r.engine.pools.drop e.pools.length).map (·.table) = r.jobs.map (·.table) ∧
          (r.jobs.map (·.table) ++ r.waiting).Nodup ∧
          r.jobs.Pairwise fun job later =>
            ∀ kind kind', (job.gapFile kind).place ≠ (later.gapFile kind').place := by
  refine ⟨fun _ => tableNames_eq_ok, ?_, fun _ => tableNames_eq_error, fun tables htables => ?_⟩
  · rw [← exists_resolves_iff]
    exact exists_congr fun _ => tableNames_eq_ok
  · have hresolves := tableNames_eq_ok.mp htables
    refine ⟨fun i t name ht hname => tableNames_eq_ok.mpr (hresolves.set ht hname),
      fun s e files events r hrun => ?_⟩
    have hnodup := MigrationRun.nodup_of_run hrun hresolves.nodup
    exact ⟨MigrationRun.pools_of_run hrun, hnodup,
      MigrationRun.gapFiles_of_run hrun hnodup.of_append_left⟩

/-- Logs and headers, in spellings of their own. -/
def logsAndHeaders : MigrationConfig := { tables := [" Logs", "HEADERS\t"] }

/-- Logs and headers are read, also if headers are spelled otherwise; in the run of the two that
fails at headers only logs have a pool. A name that repeats logs is an error. -/
theorem logsAndHeaders_resolve :
    logsAndHeaders.tableNames = .ok [.logs, .headers] ∧
    { logsAndHeaders with tables := [" Logs", "eth.Header_Cids"] }.tableNames =
      .ok [.logs, .headers] ∧
    { logsAndHeaders with tables := [" Logs", "HEADERS\t", "log_cids", "?"] }.tableNames =
      .error (.config (.repeatedTable .logs)) ∧
    ∃ r, MigrationRun.headersTaken.run? [.startTable, .startTable] = some r ∧
      r.engine.pools.map (·.table) = r.jobs.map (·.table) ∧
      (r.jobs.map (·.table) ++ r.waiting).Nodup := by
  have hlogs : Table.logs.HasSpelling " Logs" := ⟨"logs", by decide, by decide⟩
  have hheaders : Table.headers.HasSpelling "HEADERS\t" := ⟨"headers", by decide, by decide⟩
  have hresolves : Resolves [" Logs", "HEADERS\t"] [.logs, .headers] :=
    ⟨.cons hlogs (.cons hheaders .nil), by decide⟩
  have hok := (MigrationConfig.tableNames_exact logsAndHeaders).1 _ |>.mpr hresolves
  obtain ⟨hother, hruns⟩ := (MigrationConfig.tableNames_exact logsAndHeaders).2.2.2 _ hok
  obtain ⟨hpools, hnodup, -⟩ := hruns threeRanges (.fresh ⟨1, [], false⟩) MigrationRun.takenName
    _ _ MigrationRun.run_headersTaken
  have hspelling : Table.headers.HasSpelling "eth.Header_Cids" :=
    ⟨"eth.header_cids", by decide, by decide⟩
  have hfault : FirstFault [" Logs", "HEADERS\t", "log_cids", "?"]
      (.config (.repeatedTable .logs)) :=
    .repeated rfl hresolves ⟨"log_cids", by decide, by decide⟩ List.mem_cons_self
  exact ⟨hok, hother 1 .headers _ rfl hspelling,
    (MigrationConfig.tableNames_exact { tables := _ }).2.2.1 _ |>.mpr hfault,
    _, MigrationRun.run_headersTaken, hpools, hnodup⟩

end ChainMigration
