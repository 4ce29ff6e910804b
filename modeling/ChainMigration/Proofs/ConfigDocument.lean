import ChainMigration.Config.Document
import ChainMigration.Proofs.Decimal
import ChainMigration.Proofs.WrittenNodes
import Mathlib.Data.List.Basic

/-! # Configurations read back

A value is read from the node that it is written as. The entries of a record are found by their
names (`Reader.entries_named`), and a setting that is unset is not written and read as unset; so a
configuration is read back from its node (`Config.read_node`). -/

namespace ChainMigration

namespace Yaml

variable {d : Document} {n limit : Nat} {cs : List Char} {text key : String}

/-! ### Numbers -/

namespace Scalar

theorem isZeroPadded_toDigits (n : Nat) : isZeroPadded (Nat.toDigits 10 n) = false := by
  rcases Nat.eq_zero_or_pos n with rfl | hn
  · rfl
  · have hhead := Text.head?_toDigits_ne hn
    cases hcs : Nat.toDigits 10 n with
    | nil => rfl
    | cons c cs =>
      have hc := Text.isDigit_of_mem_toDigits (n := n) (hcs ▸ List.mem_cons_self)
      rw [hcs] at hhead
      have hsigned : unsigned (c :: cs) = c :: cs := by
        unfold unsigned
        split
        · next h => cases h; exact absurd hc (by decide)
        · next h => cases h; exact absurd hc (by decide)
        · rfl
      unfold isZeroPadded
      rw [hsigned]
      split
      · next h => cases h; exact absurd rfl hhead
      · rfl

theorem digits?_of_digits (hne : cs ≠ []) (hdigits : ∀ c ∈ cs, c.isDigit = true) :
    digits? 10 cs = some (Nat.ofDigitChars 10 cs 0) := by
  have hvalues : cs.mapM Text.hexValue? = some (cs.map fun c => c.toNat - '0'.toNat) := by
    clear hne
    induction cs with
    | nil => rfl
    | cons c cs ih =>
      have hc : Text.hexValue? c = some (c.toNat - '0'.toNat) :=
        if_pos (hdigits c List.mem_cons_self)
      rw [List.mapM_cons, hc, ih fun d hd => hdigits d (List.mem_cons_of_mem _ hd)]
      rfl
  have hsmall : ∀ c ∈ cs, c.toNat - 48 < 10 := by
    intro c hc
    have hdigit := Char.isDigit_iff_toNat.mp (hdigits c hc)
    simp only [Char.reduceToNat] at hdigit
    omega
  rw [digits?, if_neg hne, hvalues]
  simpa [Nat.ofDigitChars, List.foldl_map] using hsmall

theorem magnitude?_toDigits (n : Nat) : magnitude? (Nat.toDigits 10 n) = some n := by
  have hall (c : Char) (hc : c ∈ Nat.toDigits 10 n) := Text.isDigit_of_mem_toDigits hc
  have hmark (mark : Char) (hmark : mark.isDigit = false) (cs : List Char) :
      Nat.toDigits 10 n ≠ '0' :: mark :: cs := by
    intro h
    have := hall mark (by simp [h])
    rw [hmark] at this
    cases this
  unfold magnitude?
  split
  · next h => exact absurd h (hmark 'x' rfl _)
  · next h => exact absurd h (hmark 'o' rfl _)
  · next h => exact absurd h (hmark 'b' rfl _)
  · rw [isZeroPadded_toDigits, digits?_of_digits Nat.toDigits_ne_nil hall,
      Nat.ofDigitChars_ten_toDigits]
    rfl

theorem nat?_toDigits (hn : n < limit) : nat? limit (Nat.toDigits 10 n) = some n := by
  have hplus : unpositive (Nat.toDigits 10 n) = Nat.toDigits 10 n := by
    unfold unpositive
    split
    · next h =>
      have hmem : '+' ∈ Nat.toDigits 10 n := h ▸ List.mem_cons_self
      exact absurd (Text.isDigit_of_mem_toDigits hmem) (by decide)
    · rfl
  rw [nat?, hplus, magnitude?_toDigits]
  exact if_pos hn

end Scalar

/-! ### Entries -/

namespace Reader

variable {α β : Type} {read : Reader α} {settings : List (String × Node)}

/-- **Settings are found by their names** if these are among the known ones, in the known order. -/
theorem entries_named {known : List String} (hknown : known.Nodup)
    (h : (settings.map (·.1)).Sublist known) :
    entries known d (.mapping (Node.named settings)) = some settings := by
  have hread : (Node.named settings).mapM (fun entry => do
      return ((← text d entry.1), entry.2)) = some settings := by
    clear h
    induction settings with
    | nil => rfl
    | cons entry settings ih =>
      rw [Node.named, List.map_cons, List.mapM_cons, ← Node.named, ih]
      rfl
  have hkeys : settings.filter (fun entry => known.contains entry.1) = settings := by
    rw [List.filter_eq_self]
    intro entry hentry
    simpa using h.subset (List.mem_map_of_mem hentry)
  show ((Node.named settings).mapM (fun (entry : Node × Node) => do
    return ((← text d entry.1), entry.2))).bind _ = _
  rw [hread, Option.bind_some]
  show (if ((settings.filter fun entry => known.contains entry.1).map (·.1)).Nodup
    then _ else _) = _
  rw [hkeys]
  exact if_pos (h.nodup hknown)

/-! ### Values -/

theorem text_ofText (text : String) : Reader.text d (.ofText text) = some text := rfl

theorem nat_numberNode (hn : n < limit) : nat limit d (numberNode n) = some n := by
  show Scalar.nat? limit (toString n).toList = some n
  rw [show (toString n).toList = Nat.toDigits 10 n from Nat.toList_repr]
  exact Scalar.nat?_toDigits hn

theorem word_numberNode (n : UInt64) : word d (numberNode n.toNat) = some n := by
  rw [word, nat_numberNode n.toNat_lt, Option.map_some, UInt64.ofNat_toNat]

theorem bool_boolNode (b : Bool) : bool d (boolNode b) = some b := by
  cases b with
  | false => exact (by decide : Scalar.bool? "false" = some false)
  | true => exact (by decide : Scalar.bool? "true" = some true)

theorem list_textsNode (texts : List String) :
    list Reader.text d (textsNode texts) = some texts := by
  show (texts.map Node.ofText).mapM (Reader.text d) = some texts
  induction texts with
  | nil => rfl
  | cons text texts ih =>
    rw [List.map_cons, List.mapM_cons, ih]
    rfl

theorem optional_plain {read : Reader α} (h : (text.isEmpty || Scalar.isNull text) = false) :
    optional read d (.plain text) = (read d (.plain text)).map some := by
  show (if (text.isEmpty || Scalar.isNull text) = true then some none else _) = _
  rw [h]
  rfl

theorem optional_text (text : String) :
    optional Reader.text d (.ofText text) = some (some text) := by
  cases hstyle : ScalarStyle.ofText text with
  | plain =>
    have htyped : Scalar.isTyped text = false := by
      unfold ScalarStyle.ofText at hstyle
      grind
    rw [Node.ofText, hstyle]
    refine optional_plain ?_
    simp only [Scalar.isTyped, Bool.or_eq_false_iff] at htyped
    rw [htyped.1.1.1.1.1, htyped.1.1.1.1.2]
    rfl
  | _ =>
    rw [Node.ofText, hstyle]
    rfl

theorem optional_word (n : UInt64) : optional word d (numberNode n.toNat) = some (some n) := by
  have hother (text : String) (h : text.toList.all Char.isDigit = false) :
      toString n.toNat ≠ text := by
    rintro rfl
    refine Bool.eq_false_iff.mp h (List.all_eq_true.mpr fun c hc => ?_)
    rw [show (toString n.toNat).toList = _ from Nat.toList_repr] at hc
    exact Text.isDigit_of_mem_toDigits hc
  have hfull : ((toString n.toNat).isEmpty || Scalar.isNull (toString n.toNat)) = false := by
    rw [Bool.or_eq_false_iff, String.isEmpty_eq_false_iff]
    refine ⟨fun hempty => ?_, ?_⟩
    · have hnil := congrArg String.toList hempty
      rw [show (toString n.toNat).toList = _ from Nat.toList_repr] at hnil
      exact Nat.toDigits_ne_nil hnil
    · simp only [Scalar.isNull, List.contains_eq_mem, List.mem_cons, List.not_mem_nil,
        hother "null" (by decide), hother "Null" (by decide), hother "NULL" (by decide),
        hother "~" (by decide), or_false, decide_false]
  rw [numberNode, optional_plain hfull, ← numberNode, word_numberNode]
  rfl

theorem optional_texts (texts : List String) :
    optional (list Reader.text) d (textsNode texts) = some (some texts) := by
  show (list Reader.text d (textsNode texts)).map some = _
  rw [list_textsNode]
  rfl

/-! ### Settings that may be unset -/

theorem default_of_map {write : β → Node} {read : Reader (Option β)} {value : Option β}
    (h : settings.lookup key = value.map write)
    (hread : ∀ b, value = some b → read d (write b) = some (some b)) :
    default read none d settings key = some value := by
  rw [default, h]
  cases value with
  | none => rfl
  | some b => exact hread b rfl

theorem default_word {value : Option UInt64}
    (h : settings.lookup key = value.map fun n => numberNode n.toNat) :
    default (optional word) none d settings key = some value :=
  default_of_map h fun n _ => optional_word n

theorem default_text {value : Option String}
    (h : settings.lookup key = value.map Node.ofText) :
    default (optional Reader.text) none d settings key = some value :=
  default_of_map h fun text _ => optional_text text

theorem default_texts {value : Option (List String)}
    (h : settings.lookup key = value.map textsNode) :
    default (optional (list Reader.text)) none d settings key = some value :=
  default_of_map h fun texts _ => optional_texts texts

end Reader

end Yaml

open Yaml (Node Document Reader)

variable {d : Document}

/-! ### Ranges -/

theorem BlockRange.read_node (r : BlockRange) :
    BlockRange.read d (.sequence [numberNode r.start, numberNode r.stop]) = some r := by
  have hstart := Nat.lt_of_le_of_lt r.start_le_stop r.stop_lt
  have hvalues : Reader.list Reader.word d (.sequence [numberNode r.start, numberNode r.stop]) =
      some [.ofNat r.start, .ofNat r.stop] := by
    show [numberNode r.start, numberNode r.stop].mapM (Reader.word d) = _
    simp [Reader.word, Reader.nat_numberNode hstart, Reader.nat_numberNode r.stop_lt]
  have hfirst : (UInt64.ofNat r.start).toNat = r.start := UInt64.toNat_ofNat_of_lt hstart
  have hlast : (UInt64.ofNat r.stop).toNat = r.stop := UInt64.toNat_ofNat_of_lt r.stop_lt
  have hle : UInt64.ofNat r.start ≤ UInt64.ofNat r.stop := by
    rw [UInt64.le_iff_toNat_le, hfirst, hlast]
    exact r.start_le_stop
  rw [BlockRange.read, hvalues]
  show (BlockRange.between _ _).toOption = _
  simp only [BlockRange.between, dif_pos hle, hfirst, hlast]
  rfl

theorem BlockRange.read_nodes (ranges : List BlockRange) :
    Reader.list BlockRange.read d
      (.sequence (ranges.map fun r => .sequence [numberNode r.start, numberNode r.stop])) =
        some ranges := by
  show (ranges.map _).mapM (BlockRange.read d) = some ranges
  induction ranges with
  | nil => rfl
  | cons r ranges ih =>
    rw [List.map_cons, List.mapM_cons, BlockRange.read_node, ih]
    rfl

/-! ### Sections -/

/-- A setting with its name, if it is set. -/
def namedSetting {α : Type} (name : String) (f : α → Node) (value : Option α) :
    List (String × Node) :=
  (value.map fun a => (name, f a)).toList

theorem optionalSetting_eq {α : Type} (name : String) (f : α → Node) (value : Option α) :
    optionalSetting name f value = Node.named (namedSetting name f value) := by
  cases value <;> rfl

theorem named_append (l m : List (String × Node)) :
    Node.named (l ++ m) = Node.named l ++ Node.named m := List.map_append

theorem sublist_names {α : Type} (name : String) (f : α → Node) (value : Option α) :
    ((namedSetting name f value).map (·.1)).Sublist [name] := by
  cases value with
  | none => exact List.nil_sublist _
  | some a => exact List.Sublist.refl _

theorem lookup_namedSetting {α : Type} (name key : String) (f : α → Node) (value : Option α) :
    (namedSetting name f value).lookup key = if key = name then value.map f else none := by
  cases value with
  | none => simp [namedSetting]
  | some a => simp [namedSetting, List.lookup_cons]; split <;> simp_all

/-- The settings of a database with their names. -/
def DatabaseConfig.settings (db : DatabaseConfig) : List (String × Node) :=
  [("host", .ofText db.host), ("port", numberNode db.port.toNat),
    ("database", .ofText db.database), ("user", .ofText db.user),
    ("password", .ofText db.password), ("ssl_mode", .ofText db.sslMode)] ++
  namedSetting "max_connections" (fun n => numberNode n.toNat) db.maxConnections ++
  [("connect_timeout_secs", numberNode db.connectTimeoutSecs.toNat)]

theorem DatabaseConfig.node_eq (db : DatabaseConfig) :
    db.node = .mapping (Node.named db.settings) := by
  simp only [settings, node, named_append, optionalSetting_eq]
  rfl

theorem DatabaseConfig.read_node (db : DatabaseConfig) : read d db.node = some db := by
  have hentries : Reader.entries ["host", "port", "database", "user", "password", "ssl_mode",
      "max_connections", "connect_timeout_secs"] d (.mapping (Node.named db.settings)) =
        some db.settings := by
    refine Reader.entries_named (by decide) ?_
    simp only [settings, List.map_append]
    exact ((List.Sublist.refl ["host", "port", "database", "user", "password", "ssl_mode"]).append
      (sublist_names _ _ _)).append (.refl ["connect_timeout_secs"])
  have hlookup : db.settings.lookup "max_connections" =
      db.maxConnections.map fun n => numberNode n.toNat := by
    simp [settings, List.lookup_append, List.lookup_cons, lookup_namedSetting]
  have hmaximum := Reader.default_word (d := d) hlookup
  have hport : Reader.nat UInt16.size d (numberNode db.port.toNat) = some db.port.toNat :=
    Reader.nat_numberNode db.port.toNat_lt
  rw [read, node_eq, hentries]
  simp only [Option.bind_eq_bind, Option.bind_some, hmaximum]
  simp [Reader.default, settings, List.lookup_append, List.lookup_cons, lookup_namedSetting,
    Reader.text_ofText, Reader.word_numberNode, hport]

/-- The settings of what to migrate with their names. -/
def MigrationConfig.settings (m : MigrationConfig) : List (String × Node) :=
  [("tables", textsNode m.tables)] ++
  namedSetting "workers_per_table" (fun n => numberNode n.toNat) m.workersPerTable ++
  [("ranges",
    .sequence (m.ranges.map fun r => .sequence [numberNode r.start, numberNode r.stop]))] ++
  namedSetting "start" (fun n => numberNode n.toNat) m.start ++
  namedSetting "stop" (fun n => numberNode n.toNat) m.stop ++
  [("auto_range", boolNode m.autoRange)] ++
  namedSetting "segment_size" (fun n => numberNode n.toNat) m.segmentSize ++
  namedSetting "must_exist_tables" textsNode m.mustExistTables ++
  [("gap_on_any_read_failure", boolNode m.gapOnAnyReadFailure)]

theorem MigrationConfig.node_eq (m : MigrationConfig) :
    m.node = .mapping (Node.named m.settings) := by
  simp only [settings, node, named_append, optionalSetting_eq]
  rfl

theorem MigrationConfig.read_node (m : MigrationConfig) : read d m.node = some m := by
  have hentries : Reader.entries ["tables", "workers_per_table", "ranges", "start", "stop",
      "auto_range", "segment_size", "must_exist_tables", "gap_on_any_read_failure"] d
        (.mapping (Node.named m.settings)) = some m.settings := by
    refine Reader.entries_named (by decide) ?_
    simp only [settings, List.map_append]
    exact ((((((((List.Sublist.refl ["tables"]).append (sublist_names _ _ _)).append
      (.refl ["ranges"])).append (sublist_names _ _ _)).append (sublist_names _ _ _)).append
      (.refl ["auto_range"])).append (sublist_names _ _ _)).append (sublist_names _ _ _)).append
      (.refl ["gap_on_any_read_failure"])
  have hword (key : String) (value : Option UInt64)
      (h : m.settings.lookup key = value.map fun n => numberNode n.toNat) :=
    Reader.default_word (d := d) h
  have hworkers := hword "workers_per_table" m.workersPerTable
    (by simp [settings, List.lookup_append, List.lookup_cons, lookup_namedSetting])
  have hstart := hword "start" m.start
    (by simp [settings, List.lookup_append, List.lookup_cons, lookup_namedSetting])
  have hstop := hword "stop" m.stop
    (by simp [settings, List.lookup_append, List.lookup_cons, lookup_namedSetting])
  have hsize := hword "segment_size" m.segmentSize
    (by simp [settings, List.lookup_append, List.lookup_cons, lookup_namedSetting])
  have hlookup : m.settings.lookup "must_exist_tables" = m.mustExistTables.map textsNode := by
    simp [settings, List.lookup_append, List.lookup_cons, lookup_namedSetting]
  have hmust := Reader.default_texts (d := d) hlookup
  rw [read, node_eq, hentries]
  simp only [Option.bind_eq_bind, Option.bind_some, hworkers, hstart, hstop, hsize, hmust]
  simp [Reader.default, settings, List.lookup_append, List.lookup_cons, lookup_namedSetting,
    Reader.list_textsNode, BlockRange.read_nodes, Reader.bool_boolNode]

/-- The settings of a transfer with their names. -/
def TransferConfig.settings (t : TransferConfig) : List (String × Node) :=
  [("table_name", .ofText t.tableName), ("segment_size", numberNode t.segmentSize.toNat),
    ("segment_offset", numberNode t.segmentOffset.toNat), ("max_page", numberNode t.maxPage.toNat)]

theorem TransferConfig.node_eq (t : TransferConfig) : t.node = .mapping (Node.named t.settings) :=
  rfl

theorem TransferConfig.read_node (t : TransferConfig) : read d t.node = some t := by
  have hentries : Reader.entries ["table_name", "segment_size", "segment_offset", "max_page"] d
      (.mapping (Node.named t.settings)) = some t.settings :=
    Reader.entries_named (by decide) (.refl _)
  rw [read, node_eq, hentries]
  simp [Reader.default, settings, List.lookup_cons, Reader.text_ofText, Reader.word_numberNode]

/-- The settings of logs and gap files with their names. -/
def LogConfig.settings (l : LogConfig) : List (String × Node) :=
  namedSetting "level" .ofText l.level ++ namedSetting "file" .ofText l.file ++
  [("read_gaps_dir", .ofText l.readGapsDir)] ++ [("write_gaps_dir", .ofText l.writeGapsDir)] ++
  [("transfer_gaps_dir", .ofText l.transferGapsDir)]

theorem LogConfig.node_eq (l : LogConfig) : l.node = .mapping (Node.named l.settings) := by
  simp only [settings, node, named_append, optionalSetting_eq]
  rfl

theorem LogConfig.read_node (l : LogConfig) : read d l.node = some l := by
  have hentries : Reader.entries ["level", "file", "read_gaps_dir", "write_gaps_dir",
      "transfer_gaps_dir"] d (.mapping (Node.named l.settings)) = some l.settings := by
    refine Reader.entries_named (by decide) ?_
    simp only [settings, List.map_append]
    exact ((((sublist_names _ _ _).append (sublist_names _ _ _)).append
      (.refl ["read_gaps_dir"])).append (.refl ["write_gaps_dir"])).append
      (.refl ["transfer_gaps_dir"])
  have htext (key : String) (value : Option String)
      (h : l.settings.lookup key = value.map Node.ofText) := Reader.default_text (d := d) h
  have hlevel := htext "level" l.level
    (by simp [settings, List.lookup_append, List.lookup_cons, lookup_namedSetting])
  have hfile := htext "file" l.file
    (by simp [settings, List.lookup_append, List.lookup_cons, lookup_namedSetting])
  rw [read, node_eq, hentries]
  simp only [Option.bind_eq_bind, Option.bind_some, hlevel, hfile]
  simp [Reader.default, settings, List.lookup_append, List.lookup_cons, lookup_namedSetting,
    Reader.text_ofText]

/-! ### The whole configuration -/

/-- The sections with their names. -/
def Config.settings (c : Config) : List (String × Node) :=
  [("old", c.old.node), ("new", c.new.node), ("migration", c.migration.node),
    ("transfer", c.transfer.node), ("log", c.log.node)]

theorem Config.node_eq (c : Config) : c.node = .mapping (Node.named c.settings) := rfl

/-- **A configuration is read back** from its node. -/
theorem Config.read_node (c : Config) : read d c.node = some c := by
  have hentries : Reader.entries ["old", "new", "migration", "transfer", "log"] d
      (.mapping (Node.named c.settings)) = some c.settings :=
    Reader.entries_named (by decide) (.refl _)
  rw [read, node_eq, hentries]
  simp [Reader.required, Reader.default, settings, List.lookup_cons, DatabaseConfig.read_node,
    MigrationConfig.read_node, TransferConfig.read_node, LogConfig.read_node]

end ChainMigration
