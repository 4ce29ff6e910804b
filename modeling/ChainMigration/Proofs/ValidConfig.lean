import ChainMigration.Config.Validate
import ChainMigration.Database.Reader
import ChainMigration.Proofs.Decimal
import ChainMigration.Proofs.PageTransfer
import ChainMigration.Run.Plan

/-! # Valid configurations can be used

What a check of a configuration establishes (`Config.validate_eq_ok`) is all that its later use
asks for: its tables, ranges and modes of encryption can be read, the policy has the required tables
that the configuration names, a transfer can only fail to find its last page, and planning ends in
one of four ways (`Config.Plans`), of which the two errors are not about a single setting.

All of this is put together in `Config.usable_of_validate`. -/

namespace ChainMigration

/-! ### What is checked -/

theorem demand_eq_ok {holds : Bool} {reason : ConfigError} :
    demand holds reason = .ok () ↔ holds = true := by
  cases holds <;> simp [demand]

theorem namedTable_eq_ok {name : String} {t : Table} :
    namedTable name = .ok t ↔ Table.ofText? name = some t := by
  unfold namedTable
  cases Table.ofText? name <;> simp

theorem exists_mapM_namedTable : ∀ {names : List String},
    (∃ tables, names.mapM namedTable = .ok tables) ↔
      ∀ name ∈ names, ∃ t, Table.ofText? name = some t
  | [] => iff_of_true ⟨[], rfl⟩ fun _ h => absurd h List.not_mem_nil
  | name :: names => by
    rw [List.mapM_cons, List.forall_mem_cons, ← exists_mapM_namedTable]
    simp only [bind_eq_ok, pure_eq_ok, namedTable_eq_ok]
    constructor
    · rintro ⟨-, t, ht, tables, htables, -⟩
      exact ⟨⟨t, ht⟩, tables, htables⟩
    · rintro ⟨⟨t, ht⟩, tables, htables⟩
      exact ⟨t :: tables, t, ht, tables, htables, rfl⟩

/-- **The settings of a database are in order.** -/
structure DatabaseConfig.Valid (db : DatabaseConfig) : Prop where
  host : db.host.isEmpty = false
  database : db.database.isEmpty = false
  user : db.user.isEmpty = false
  sslMode : ∃ mode, SslMode.ofText db.sslMode = .ok mode

theorem DatabaseConfig.validate_eq_ok {db : DatabaseConfig} {name : String} :
    db.validate name = .ok () ↔ db.Valid := by
  unfold validate
  simp only [↓unit_bind_eq_ok, bind_eq_ok, demand_eq_ok, pure_eq_ok, mapError_eq_ok,
    Bool.not_eq_true', and_true]
  constructor
  · rintro ⟨hhost, hdatabase, huser, hmode⟩
    exact ⟨hhost, hdatabase, huser, hmode⟩
  · rintro ⟨hhost, hdatabase, huser, hmode⟩
    exact ⟨hhost, hdatabase, huser, hmode⟩

/-- **The settings of a configuration are in order**, one by one and together. -/
structure Config.Valid (c : Config) : Prop where
  old : c.old.Valid
  new : c.new.Valid
  tables : ∃ tables, c.migration.tableNames = .ok tables ∧
    (repairsOnly tables || !c.old.sameAs c.new) = true
  ranges : ∃ ranges, c.migration.blockRanges = .ok ranges
  required : ∀ name ∈ c.migration.mustExistTables.getD [], ∃ t, Table.ofText? name = some t
  segmentSize : c.migration.segmentSize ≠ some 0
  autoRange : c.migration.autoRange = true → ∃ size, c.migration.segmentSize = some size
  pages : c.transfer.segmentSize ≠ 0
  tableName : (Text.trim c.transfer.tableName).isEmpty = false

/-- **A configuration passes the check** exactly if its settings are in order. -/
theorem Config.validate_eq_ok {c : Config} : c.validate = .ok () ↔ c.Valid := by
  unfold validate
  simp only [↓unit_bind_eq_ok, bind_eq_ok, demand_eq_ok, DatabaseConfig.validate_eq_ok]
  constructor
  · rintro ⟨hold, hnew, tables, htables, hapart, ranges, hranges, named, hnamed, hsize, hauto,
      hpages, hname⟩
    have hrequired := exists_mapM_namedTable.mp ⟨named, hnamed⟩
    refine ⟨hold, hnew, ⟨tables, htables, hapart⟩, ⟨ranges, hranges⟩, hrequired,
      by simpa using hsize, fun h => ?_, by simpa using hpages, by simpa using hname⟩
    rw [h] at hauto
    exact Option.isSome_iff_exists.mp (by simpa using hauto)
  · rintro ⟨hold, hnew, ⟨tables, htables, hapart⟩, ⟨ranges, hranges⟩, hrequired, hsize, hauto,
      hpages, hname⟩
    obtain ⟨named, hnamed⟩ := exists_mapM_namedTable.mpr hrequired
    refine ⟨hold, hnew, tables, htables, hapart, ranges, hranges, named, hnamed,
      by simpa using hsize, ?_, by simpa using hpages, by simpa using hname⟩
    cases h : c.migration.autoRange with
    | false => rfl
    | true =>
      obtain ⟨size, hsome⟩ := hauto h
      rw [hsome]
      rfl

/-! ### Required tables -/

/-- **The table is required**: it is one of the tables that the configuration names, or of the usual
ones if it names none. -/
def MigrationConfig.Requires (m : MigrationConfig) (t : Table) : Prop :=
  match m.mustExistTables with
  | none => t.mustExist = true
  | some names => ∃ name ∈ names, Table.ofText? name = some t

namespace MigrationConfig

variable {m : MigrationConfig} {t : Table}

theorem exists_isNamed : ∀ {names : List String},
    (∀ name ∈ names, ∃ u, Table.ofText? name = some u) →
    ∃ named, isNamed t names = .ok named ∧
      (named = true ↔ ∃ name ∈ names, Table.ofText? name = some t)
  | [], _ => ⟨false, rfl, by simp⟩
  | name :: names, h => by
    obtain ⟨⟨u, hu⟩, hnames⟩ := List.forall_mem_cons.mp h
    have hread : isNamed t (name :: names) = if u = t then .ok true else isNamed t names := by
      rw [isNamed, namedTable_eq_ok.mpr hu]
      rfl
    rw [hread]
    by_cases hut : u = t
    · rw [if_pos hut]
      exact ⟨true, rfl, iff_of_true rfl ⟨name, List.mem_cons_self, hut ▸ hu⟩⟩
    · rw [if_neg hut]
      obtain ⟨named, hnamed, hiff⟩ := exists_isNamed hnames
      refine ⟨named, hnamed, hiff.trans ?_⟩
      simp [hu, hut]

theorem exists_mustExist (h : ∀ name ∈ m.mustExistTables.getD [], ∃ u, Table.ofText? name = some u)
    (t : Table) : ∃ required, m.mustExist t = .ok required ∧ (required = true ↔ m.Requires t) := by
  unfold mustExist Requires
  cases hnames : m.mustExistTables with
  | none => exact ⟨t.mustExist, rfl, Iff.rfl⟩
  | some names =>
    rw [hnames] at h
    exact exists_isNamed h

end MigrationConfig

namespace Config

variable {c : Config}

theorem exists_requiredTables
    (h : ∀ name ∈ c.migration.mustExistTables.getD [], ∃ u, Table.ofText? name = some u) :
    ∀ tables : List Table, ∃ required, c.requiredTables tables = .ok required ∧
      ∀ t, t ∈ required ↔ t ∈ tables ∧ c.migration.Requires t
  | [] => ⟨[], rfl, by simp⟩
  | t :: tables => by
    obtain ⟨required, hrequired, hiff⟩ := MigrationConfig.exists_mustExist h t
    obtain ⟨rest, hrest, hmem⟩ := exists_requiredTables h tables
    refine ⟨if required then t :: rest else rest, ?_, fun u => ?_⟩
    · rw [requiredTables, hrequired, hrest]
      rfl
    · cases required with
      | true =>
        have ht := hiff.mp rfl
        rw [if_pos rfl, List.mem_cons, List.mem_cons, hmem, or_and_right]
        refine or_congr_left (iff_self_and.mpr ?_)
        rintro rfl
        exact ht
      | false =>
        have ht : ¬ c.migration.Requires t := fun h => Bool.false_ne_true (hiff.mpr h)
        rw [if_neg (by decide), List.mem_cons, hmem, or_and_right]
        refine (or_iff_right ?_).symm
        rintro ⟨rfl, hu⟩
        exact ht hu

/-- **The policy of a configuration** has the tables that the configuration requires. -/
theorem exists_policy
    (h : ∀ name ∈ c.migration.mustExistTables.getD [], ∃ u, Table.ofText? name = some u) :
    ∃ p, c.policy = .ok p ∧ ∀ t, p.requires t = true ↔ c.migration.Requires t := by
  obtain ⟨required, hrequired, hmem⟩ := exists_requiredTables h Table.all
  refine ⟨⟨c.migration.workers, required, c.migration.gapOnAnyReadFailure⟩, ?_, fun t => ?_⟩
  · rw [policy, hrequired]
    rfl
  · rw [Policy.requires, List.contains_iff_mem, hmem, and_iff_right t.mem_all]

end Config

/-! ### Starting a transfer -/

theorem Engine.startTransfer_eq_error {e : Engine} {c : TransferConfig}
    {lookUp : String → Except MigrationError UInt64} {reason : MigrationError}
    (hsize : c.segmentSize ≠ 0) : e.startTransfer c lookUp = .error reason ↔
      c.maxPage = 0 ∧ lookUp c.tableName = .error reason := by
  have hlast : c.lastPage lookUp = .error reason ↔
      c.maxPage = 0 ∧ lookUp c.tableName = .error reason := by
    unfold TransferConfig.lastPage
    split <;> simp_all
  rw [← hlast]
  cases hpage : c.lastPage lookUp with
  | error cause =>
    rw [startTransfer, TransferConfig.segments_eq hsize, hpage]
    refine ⟨fun h => ?_, fun h => ?_⟩ <;>
    · cases h
      rfl
  | ok last =>
    obtain ⟨all, -, -, hsegments⟩ := TransferConfig.exists_segments hsize hpage
    rw [startTransfer, hsegments]
    exact iff_of_false (by rintro ⟨⟩) (by rintro ⟨⟩)

/-! ### Planning -/

/-- **Two texts tell heights**: both are there and denote numbers of 64 bits, in order. -/
def TellHeights (texts : Option String × Option String) (low high : UInt64) : Prop :=
  (∃ raw, texts.1 = some raw ∧ Text.Denotes (Text.trimmed raw.toList) low.toNat) ∧
    (∃ raw, texts.2 = some raw ∧ Text.Denotes (Text.trimmed raw.toList) high.toNat) ∧ low ≤ high

theorem readWord_trim_eq_ok {raw : String} {n : Nat} :
    Text.readWord (Text.trim raw) = .ok n ↔
      Text.Denotes (Text.trimmed raw.toList) n ∧ n < UInt64.size := by
  rw [Text.readWord, Text.trim, String.toList_ofList,
    Text.readUnsigned_eq_ok_iff (by decide)]

theorem readHeightBounds_eq_ok {texts : Option String × Option String} {low high : UInt64} :
    readHeightBounds texts = .ok (low, high) ↔ TellHeights texts low high := by
  unfold TellHeights
  match texts with
  | (none, _) => exact iff_of_false (by rintro ⟨⟩) (by rintro ⟨⟨_, ⟨⟩, -⟩, -⟩)
  | (some _, none) => exact iff_of_false (by rintro ⟨⟩) (by rintro ⟨-, ⟨_, ⟨⟩, -⟩, -⟩)
  | (some rawLow, some rawHigh) =>
    simp only [readHeightBounds, bind_eq_ok, mapError_eq_ok, readWord_trim_eq_ok,
      Option.some.injEq, exists_eq_left']
    constructor
    · rintro ⟨least, ⟨hlow, hlowlt⟩, most, ⟨hhigh, hhighlt⟩, h⟩
      by_cases hle : least ≤ most
      · rw [if_pos hle] at h
        cases h
        rw [UInt64.le_iff_toNat_le, UInt64.toNat_ofNat_of_lt' hlowlt,
          UInt64.toNat_ofNat_of_lt' hhighlt]
        exact ⟨hlow, hhigh, hle⟩
      · rw [if_neg hle] at h
        cases h
    · rintro ⟨hlow, hhigh, hle⟩
      refine ⟨low.toNat, ⟨hlow, low.toNat_lt⟩, high.toNat, ⟨hhigh, high.toNat_lt⟩, ?_⟩
      rw [if_pos (UInt64.le_iff_toNat_le.mp hle), UInt64.ofNat_toNat, UInt64.ofNat_toNat]
      rfl

theorem exists_rangeDetection {texts : Option String × Option String} {reason : MigrationError}
    (h : readHeightBounds texts = .error reason) : ∃ cause, reason = .rangeDetection cause := by
  match texts with
  | (none, _) | (some _, none) =>
    cases h
    exact ⟨_, rfl⟩
  | (some rawLow, some rawHigh) =>
    dsimp only [readHeightBounds] at h
    cases hlow : Text.readWord (Text.trim rawLow) with
    | error fault =>
      rw [hlow] at h
      cases h
      exact ⟨_, rfl⟩
    | ok least =>
      cases hhigh : Text.readWord (Text.trim rawHigh) with
      | error fault =>
        rw [hlow, hhigh] at h
        cases h
        exact ⟨_, rfl⟩
      | ok most =>
        rw [hlow, hhigh] at h
        dsimp only [Except.mapError, bind, Except.bind] at h
        split at h
        · cases h
        · cases h
          exact ⟨_, rfl⟩

/-- **The configured ranges**: those that are listed, and the one between two bounds behind them. -/
def MigrationConfig.Lists (m : MigrationConfig) (ranges : List BlockRange) : Prop :=
  (m.start = none ∧ m.stop = none ∧ ranges = m.ranges) ∨
    ∃ range : BlockRange, m.start = some (.ofNat range.start) ∧ m.stop = some (.ofNat range.stop) ∧
      ranges = m.ranges ++ [range]

theorem MigrationConfig.blockRanges_eq_ok {m : MigrationConfig} {ranges : List BlockRange} :
    m.blockRanges = .ok ranges ↔ m.Lists ranges := by
  unfold blockRanges Lists
  cases hstart : m.start with
  | none =>
    cases hstop : m.stop with
    | none => simpa using eq_comm
    | some stop => simp
  | some start =>
    cases hstop : m.stop with
    | none => simp
    | some stop =>
      rw [or_iff_right (by simp)]
      dsimp only [BlockRange.between]
      by_cases hle : start ≤ stop
      · rw [dif_pos hle]
        constructor
        · intro h
          cases h
          refine ⟨⟨start.toNat, stop.toNat, hle, stop.toNat_lt⟩, ?_, ?_, rfl⟩
          · rw [UInt64.ofNat_toNat]
          · rw [UInt64.ofNat_toNat]
        · rintro ⟨⟨first, last, hfirst, hlast⟩, hstart, hstop, rfl⟩
          cases hstart
          cases hstop
          simp only [UInt64.toNat_ofNat_of_lt' (Nat.lt_of_le_of_lt hfirst hlast),
            UInt64.toNat_ofNat_of_lt' hlast]
      · rw [dif_neg hle]
        refine iff_of_false (by rintro ⟨⟩) ?_
        rintro ⟨⟨first, last, hfirst, hlast⟩, hstart, hstop, -⟩
        cases hstart
        cases hstop
        refine hle (UInt64.le_iff_toNat_le.mpr ?_)
        rwa [UInt64.toNat_ofNat_of_lt' (Nat.lt_of_le_of_lt hfirst hlast),
          UInt64.toNat_ofNat_of_lt' hlast]

/-- **How planning can end**, given the two texts of the lowest and the highest height. -/
inductive Config.Plans (c : Config) (texts : Option String × Option String) :
    Except MigrationError (List BlockRange) → Prop
  /-- The heights are cut into segments of the configured size. -/
  | detected {size low high : UInt64} {ranges : List BlockRange}
    (hauto : c.migration.autoRange = true) (hsize : c.migration.segmentSize = some size)
    (htexts : TellHeights texts low high)
    (hcut : Segmented size.toNat low.toNat high.toNat ranges) : Plans c texts (.ok ranges)
  /-- There are no heights. -/
  | undetected {cause : DetectionError} (hauto : c.migration.autoRange = true)
    (htexts : ∀ low high, ¬ TellHeights texts low high) :
    Plans c texts (.error (.rangeDetection cause))
  /-- The ranges are the configured ones. -/
  | listed {ranges : List BlockRange} (hauto : c.migration.autoRange = false)
    (hranges : c.migration.Lists ranges) (hne : ranges ≠ []) : Plans c texts (.ok ranges)
  /-- No ranges are configured. -/
  | unlisted (hauto : c.migration.autoRange = false) (hranges : c.migration.ranges = [])
    (hstart : c.migration.start = none) (hstop : c.migration.stop = none) :
    Plans c texts (.error (.config .noRanges))

namespace Config

variable {c : Config} {texts : Option String × Option String}

/-- **Planning ends in one of these ways** if the settings are in order. -/
theorem plans_of_valid (h : c.Valid) (texts : Option String × Option String) :
    c.Plans texts (c.plan (readHeightBounds texts)) := by
  cases hauto : c.migration.autoRange with
  | true =>
    obtain ⟨size, hsize⟩ := h.autoRange hauto
    have hne : size ≠ 0 := by
      rintro rfl
      exact h.segmentSize hsize
    cases hbounds : readHeightBounds texts with
    | error reason =>
      obtain ⟨cause, rfl⟩ := exists_rangeDetection hbounds
      rw [plan, if_pos hauto, hsize]
      refine .undetected hauto fun low high htexts => ?_
      rw [readHeightBounds_eq_ok.mpr htexts] at hbounds
      cases hbounds
    | ok bounds =>
      obtain ⟨low, high⟩ := bounds
      have htexts := readHeightBounds_eq_ok.mp hbounds
      obtain ⟨ranges, hranges, hcut⟩ := exists_segment hne htexts.2.2
      have hplan : c.plan (.ok (low, high)) = .ok ranges := by
        have hsome : ranges.isEmpty = false := by
          rw [List.isEmpty_eq_false_iff_exists_mem, ← List.length_pos_iff_exists_mem, hcut.length]
          exact Nat.succ_pos _
        rw [plan, if_pos hauto, hsize]
        dsimp only [detectRanges, bind, Except.bind]
        rw [hranges]
        dsimp only [Except.mapError]
        rw [if_neg (Bool.eq_false_iff.mp hsome)]
      rw [hplan]
      exact .detected hauto hsize htexts hcut
  | false =>
    obtain ⟨ranges, hranges⟩ := h.ranges
    have hlists := MigrationConfig.blockRanges_eq_ok.mp hranges
    have hplan (bounds : Except MigrationError (UInt64 × UInt64)) : c.plan bounds =
        if ranges.isEmpty then .error (.config .noRanges) else .ok ranges := by
      rw [plan, if_neg (Bool.eq_false_iff.mp hauto), hranges]
      rfl
    rw [hplan]
    by_cases hempty : ranges = []
    · rw [if_pos (List.isEmpty_iff.mpr hempty)]
      obtain ⟨hstart, hstop, hall⟩ | ⟨range, -, -, hall⟩ := hlists
      · exact .unlisted hauto (hall.symm.trans hempty) hstart hstop
      · exact absurd (hall.symm.trans hempty)
          (List.append_ne_nil_of_right_ne_nil _ (List.cons_ne_nil _ _))
    · rw [if_neg (mt List.isEmpty_iff.mp hempty)]
      exact .listed hauto hlists hempty

namespace Plans

variable {result : Except MigrationError (List BlockRange)}

theorem ne_nil {ranges : List BlockRange} (h : c.Plans texts (.ok ranges)) : ranges ≠ [] := by
  cases h with
  | detected _ _ _ hcut =>
    refine List.ne_nil_of_length_pos ?_
    rw [hcut.length]
    exact Nat.succ_pos _
  | listed _ _ hne => exact hne

theorem rangeDetection_iff (h : c.Plans texts result) :
    (∃ cause, result = .error (.rangeDetection cause)) ↔
      c.migration.autoRange = true ∧ ∀ low high, ¬ TellHeights texts low high := by
  cases h with
  | detected hauto _ htexts _ => exact iff_of_false (by rintro ⟨_, ⟨⟩⟩) fun h => h.2 _ _ htexts
  | undetected hauto htexts => exact iff_of_true ⟨_, rfl⟩ ⟨hauto, htexts⟩
  | listed hauto _ _ | unlisted hauto _ _ _ =>
    exact iff_of_false (by rintro ⟨_, ⟨⟩⟩) fun h => Bool.false_ne_true (hauto.symm.trans h.1)

/-- **There are no ranges** exactly if none are configured and none are to be detected. -/
theorem noRanges_iff (h : c.Plans texts result) :
    result = .error (.config .noRanges) ↔ c.migration.autoRange = false ∧
      c.migration.ranges = [] ∧ c.migration.start = none ∧ c.migration.stop = none := by
  cases h with
  | detected hauto _ _ _ | undetected hauto _ =>
    exact iff_of_false (by rintro ⟨⟩) fun h => Bool.false_ne_true (h.1.symm.trans hauto)
  | listed hauto hlists hne =>
    refine iff_of_false (by rintro ⟨⟩) ?_
    rintro ⟨-, hranges, hstart, -⟩
    obtain ⟨-, -, hall⟩ | ⟨range, hsome, -, -⟩ := hlists
    · exact hne (hall.trans hranges)
    · rw [hstart] at hsome
      cases hsome
  | unlisted hauto hranges hstart hstop => exact iff_of_true rfl ⟨hauto, hranges, hstart, hstop⟩

end Plans

/-- **A configuration that passes the check can be used.** Its tables, its ranges and both modes of
encryption can be read, and the policy has exactly the required tables. A transfer only fails to
start if the last page is to be looked up and is not found. Planning, from whatever texts of the
lowest and the highest height, ends in one of the ways of `Plans`: with ranges, without heights, or
without configured ranges. -/
theorem usable_of_validate (h : c.validate = .ok ()) :
    (∃ tables, c.migration.tableNames = .ok tables) ∧
    (∃ ranges, c.migration.blockRanges = .ok ranges ∧ c.migration.Lists ranges) ∧
    (∃ mode, SslMode.ofText c.old.sslMode = .ok mode) ∧
    (∃ mode, SslMode.ofText c.new.sslMode = .ok mode) ∧
    (∃ p, c.policy = .ok p ∧ ∀ t, p.requires t = true ↔ c.migration.Requires t) ∧
    (∀ (e : Engine) lookUp reason, e.startTransfer c.transfer lookUp = .error reason ↔
      c.transfer.maxPage = 0 ∧ lookUp c.transfer.tableName = .error reason) ∧
    ∀ texts, c.Plans texts (c.plan (readHeightBounds texts)) ∧
      (∀ ranges, c.plan (readHeightBounds texts) = .ok ranges → ranges ≠ []) ∧
      ((∃ cause, c.plan (readHeightBounds texts) = .error (.rangeDetection cause)) ↔
        c.migration.autoRange = true ∧ ∀ low high, ¬ TellHeights texts low high) ∧
      (c.plan (readHeightBounds texts) = .error (.config .noRanges) ↔
        c.migration.autoRange = false ∧ c.migration.ranges = [] ∧ c.migration.start = none ∧
          c.migration.stop = none) := by
  have hvalid := validate_eq_ok.mp h
  obtain ⟨tables, htables, -⟩ := hvalid.tables
  obtain ⟨ranges, hranges⟩ := hvalid.ranges
  refine ⟨⟨tables, htables⟩, ⟨ranges, hranges, MigrationConfig.blockRanges_eq_ok.mp hranges⟩,
    hvalid.old.sslMode, hvalid.new.sslMode, exists_policy hvalid.required,
    fun e lookUp reason => Engine.startTransfer_eq_error hvalid.pages, fun texts => ?_⟩
  have hplans := plans_of_valid hvalid texts
  refine ⟨hplans, fun ranges hok => ?_, hplans.rangeDetection_iff, hplans.noRanges_iff⟩
  rw [hok] at hplans
  exact hplans.ne_nil

/-- Headers over the detected heights, in segments of ten. -/
def detectedHeaders : Config where
  old := { host := "localhost", database := "v2", user := "vdbm" }
  new := { host := "localhost", database := "v3", user := "vdbm", sslMode := "require" }
  migration :=
    { tables := ["headers"], autoRange := true, segmentSize := some 10
      mustExistTables := some ["log_cids"] }

/-- The heights from 3 to 27 are cut into segments of ten, and only logs are required. -/
theorem detectedHeaders_usable :
    detectedHeaders.validate = .ok () ∧
    (∃ p, detectedHeaders.policy = .ok p ∧ p.requires .logs = true ∧ p.requires .headers = false) ∧
    ∃ ranges, detectedHeaders.plan (readHeightBounds (some "3", some " 27")) = .ok ranges ∧
      Segmented 10 3 27 ranges := by
  have hvalid : detectedHeaders.validate = .ok () := by rfl
  obtain ⟨-, -, -, -, ⟨p, hp, hrequires⟩, -, hplan⟩ := usable_of_validate hvalid
  refine ⟨hvalid, ⟨p, hp, (hrequires .logs).mpr ⟨"log_cids", by decide, rfl⟩, ?_⟩, ?_⟩
  · rw [Bool.eq_false_iff, ne_eq, hrequires]
    rintro ⟨name, hname, htable⟩
    cases List.mem_singleton.mp hname
    cases htable
  · have hplans := (hplan (some "3", some " 27")).1
    have htold : readHeightBounds (some "3", some " 27") = .ok (3, 27) := rfl
    generalize detectedHeaders.plan (readHeightBounds (some "3", some " 27")) = result at hplans
    cases hplans with
    | detected hauto hsize htexts hcut =>
      cases hsize
      have heq := htold.symm.trans (readHeightBounds_eq_ok.mpr htexts)
      cases heq
      exact ⟨_, rfl, hcut⟩
    | undetected hauto htexts => exact absurd (readHeightBounds_eq_ok.mp htold) (htexts 3 27)
    | listed hauto | unlisted hauto => cases hauto

end Config

end ChainMigration
