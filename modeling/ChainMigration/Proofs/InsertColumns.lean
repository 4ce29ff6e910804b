import ChainMigration.Proofs.HeightChecks
import ChainMigration.Proofs.LogRepair
import ChainMigration.Table.Query

/-! # Where the values of rows go

New rows are written by an insert from arrays, one for each column, and only positions tell which
array is for which column: those of the columns of the new row, of the parameters in the text of the
insert, and of the columns that the text names. `Insert.read` reads such a text, and for every table
the columns that it fills are those of the new rows, in order (`exists_insert`).

What a column should hold of an old row is said by name (`OldRow.valueFor`): mostly the value of the
column of the same name. New rows hold these values (`OldRow.Becomes.bound_eq`), so each value goes
to the column it is for (`Table.upgrade_columns`). -/

namespace ChainMigration

variable {t : Table}

/-! ### Inserts from arrays -/

namespace Sql

/-- A word of a statement, or a mark between words. -/
inductive Token
  | word (letters : String)
  | mark (c : Char)
deriving DecidableEq

/-- The characters of words: of names, types and parameters. -/
def inWord (c : Char) : Bool := c.isAlphanum || c = '_' || c = '.' || c = '$'

/-- The word that has these letters, if there are any. -/
def wordOf (letters : List Char) : List Token :=
  if letters = [] then [] else [.word (.ofList letters)]

/-- The tokens of a text behind the letters of a word. Blanks only separate words. -/
def tokens (letters : List Char) : List Char → List Token
  | [] => wordOf letters
  | c :: cs =>
    if inWord c then tokens (letters ++ [c]) cs
    else wordOf letters ++ if c.isWhitespace then tokens [] cs else .mark c :: tokens [] cs

/-- The number of a parameter, a word that begins with a dollar sign. -/
def parameter? (word : String) : Option Nat :=
  match word.toList with
  | '$' :: digits => (Text.readUnsigned 0x1_0000 digits).toOption
  | _ => none

/-- The parameters of a statement, as they stand in its text. -/
def parametersOf (text : String) : List Nat :=
  (tokens [] text.toList).filterMap fun
    | .word letters => parameter? letters
    | .mark _ => none

/-- The first words of items that stand between commas. What follows in an item is its type. -/
def firstWords (ts : List Token) : List String :=
  (ts.splitOn (.mark ',')).filterMap fun
    | .word letters :: _ => some letters
    | .mark '*' :: _ => some "*"
    | _ => none

/-- The items up to a token, and the tokens behind it. -/
def itemsUpTo (stop : Token) (ts : List Token) : Option (List String × List Token) :=
  match ts.span (· ≠ stop) with
  | (items, _ :: rest) => some (firstWords items, rest)
  | (_, []) => none

/-- **An insert from arrays**, whose rows are made of one element from each array: the columns that
it fills, the elements that it selects for them, the parameters that are the arrays and the names of
their elements, if they have any. -/
structure Insert where
  columns : List String
  selected : List String
  arrays : List Nat
  names : List String

/-- Reads an insert from arrays. -/
def Insert.read (text : String) : Option Insert := do
  let ts ← (tokens [] text.toList).dropPrefix? [.word "INSERT", .word "INTO"]
  -- The name of the table.
  let ts ← ts.tail.dropPrefix? [.mark '(']
  let (columns, ts) ← itemsUpTo (.mark ')') ts
  let ts ← ts.dropPrefix? [.word "SELECT"]
  let (selected, ts) ← itemsUpTo (.word "FROM") ts
  let ts ← ts.dropPrefix? [.word "unnest", .mark '(']
  let (arrays, ts) ← itemsUpTo (.mark ')') ts
  let arrays ← arrays.mapM parameter?
  match ts.dropPrefix? [.word "AS", .word "t", .mark '('] with
  | some ts =>
    let (names, _) ← itemsUpTo (.mark ')') ts
    return ⟨columns, selected, arrays, names⟩
  | none => return ⟨columns, selected, arrays, []⟩

/-- The parameters whose elements are selected, in the order of the columns that they fill. -/
def Insert.sources? (insert : Insert) : Option (List Nat) :=
  if insert.selected = ["*"] then some insert.arrays
  else insert.selected.mapM fun name => (insert.names.zip insert.arrays).lookup name

/-- **The array that fills a column**, of those that are bound to the parameters from 1 on. -/
def Insert.array? (insert : Insert) (bound : List (List Value)) (column : String) :
    Option (List Value) := do
  let n ← (insert.columns.zip (← insert.sources?)).lookup column
  bound[n - 1]?

/-- The characters of a literal. The equation is evaluated at once, unlike `String.toList`. -/
theorem toList_of_eq_ofList {s : String} {cs : List Char} (h : s = .ofList cs) : s.toList = cs :=
  h ▸ String.toList_ofList

/-- **The inserts of all tables** fill the columns of the new rows from the parameters in order. -/
theorem exists_insert (t : Table) :
    ∃ insert, Insert.read t.writeQuery = some insert ∧
      insert.columns = (NewRow.fields t).map (·.name) ∧
      insert.sources? = some (List.range' 1 insert.columns.length) := by
  have h : (Insert.read t.writeQuery).any fun insert =>
      insert.columns = (NewRow.fields t).map (·.name) ∧
        insert.sources? = some (List.range' 1 insert.columns.length) := by
    cases t <;>
    · rw [Table.writeQuery, Insert.read, toList_of_eq_ofList rfl]
      decide +kernel
  obtain ⟨insert, hread, h⟩ := (Option.any_eq_true _ _).mp h
  exact ⟨insert, hread, of_decide_eq_true h⟩

/-- The parameters of the inserts stand in order, one for each column of the new rows. -/
theorem parametersOf_writeQuery (t : Table) :
    parametersOf t.writeQuery = List.range' 1 (NewRow.fields t).length := by
  cases t <;>
  · rw [Table.writeQuery, parametersOf, toList_of_eq_ofList rfl]
    decide +kernel

theorem exists_lookup_zip_range' {column : String} : ∀ {columns : List String} (start : Nat),
    column ∈ columns → ∃ k, columns[k]? = some column ∧
      (columns.zip (List.range' start columns.length)).lookup column = some (start + k)
  | name :: names, start, h => by
    rw [List.length_cons, List.range'_succ, List.zip_cons_cons, List.lookup_cons]
    by_cases heq : column = name
    · exact ⟨0, by rw [heq]; rfl, by rw [beq_iff_eq.mpr heq]; rfl⟩
    · obtain ⟨k, hk, hlookup⟩ :=
        exists_lookup_zip_range' (start + 1) ((List.mem_cons.mp h).resolve_left heq)
      refine ⟨k + 1, hk, ?_⟩
      rw [beq_eq_false_iff_ne.mpr heq]
      exact hlookup.trans (congrArg some (by omega))

theorem Insert.exists_array?_eq {insert : Insert} {column : String}
    (hsources : insert.sources? = some (List.range' 1 insert.columns.length))
    (hcolumn : column ∈ insert.columns) (bound : List (List Value)) :
    ∃ k : Nat, insert.columns[k]? = some column ∧ insert.array? bound column = bound[k]? := by
  obtain ⟨k, hk, hlookup⟩ := exists_lookup_zip_range' 1 hcolumn
  refine ⟨k, hk, ?_⟩
  rw [array?, hsources]
  dsimp only [bind, Option.bind]
  rw [hlookup, Nat.add_comm]
  rfl

end Sql

/-! ### What a column holds of an old row -/

theorem ResultRow.get_eq_ok {α : Type} [Readable α] {cells : ResultRow} {name : String} {cell : Cell}
    {a : α}
    (hcell : cells[cells.findIdx (·.name = name)]? = some cell)
    (haccepts : Readable.accepts α cell.type = true)
    (hvalue : Readable.ofValue? cell.value = some a) : cells.get name = .ok a := by
  unfold get
  dsimp only
  rw [hcell]
  dsimp only
  rw [if_pos haccepts, hvalue]

theorem ofValue?_storageKeys (keys : Option (List String)) :
    Readable.ofValue? (.ofOption keyTexts keys) = some keys := by
  cases keys with
  | none => rfl
  | some keys =>
    have h : (keys.map some).mapM id = some keys := by
      rw [List.mapM_map]
      exact (List.mapM_pure (f := id)).trans (congrArg some keys.map_id)
    exact congrArg (Option.map some) h

namespace OldRow

/-- The row as a row of a query result. -/
def cells (row : OldRow t) : ResultRow :=
  List.zipWith (fun f v => ⟨f.name, f.type, v⟩) (OldRow.fields t) row.values

/-- The value of the column of a name. -/
def value? (row : OldRow t) (name : String) : Option Value :=
  (row.cells.find? (·.name = name)).map (·.value)

/-- The text of an array of texts. -/
def arrayText (texts : List String) : String := "\x7b" ++ ",".intercalate texts ++ "\x7d"

/-- **The columns that do not hold the value of the column of the same name**: references to a
parent, which hold its hash, columns that are derived from encoded data, the block number, which is
a number now, the type of a transaction, which is zero by default, and storage keys, which are
written as a text. -/
def rewritten : {t : Table} → OldRow t → List (String × Option Value)
  | .nodes, _ => []
  | .headers, r =>
    [("block_number", (OldRow.height? (t := .headers) r).map fun height => .bigint (.ofNat height)),
    ("coinbase", (Chain.beneficiary (OldHeader.data r)).toOption.map .text)]
  | .uncles, r => [("header_id", some (.text (OldUncle.headerHash r)))]
  | .transactions, r =>
    [("header_id", some (.text (OldTransaction.blockHash r))),
    ("tx_type", some (.integer ((OldTransaction.txType r).getD 0))),
    ("value", (Chain.transactionValue (OldTransaction.data r)).toOption.map fun value =>
      .text (toString value))]
  | .accessListElements, r =>
    [("tx_id", some (.text (OldAccessListElement.txHash r))),
    ("storage_keys",
      some (.ofOption .text ((OldAccessListElement.storageKeys r).map arrayText)))]
  | .receipts, r => [("tx_id", some (.text (OldReceipt.txHash r)))]
  | .logs, r => [("rct_id", some (.text (OldLog.txHash r)))]
  | .logRepair, r =>
    [("key", (StoredLog.canonical r).toOption.map fun log => .text (Chain.blobKey log.encode)),
    ("data", (StoredLog.canonical r).toOption.map fun log => .bytes log.encode)]
  | .state, r => [("header_id", some (.text (OldStateNode.blockHash r)))]
  | .accounts, r => [("header_id", some (.text (OldAccount.blockHash r)))]
  | .storage, r => [("header_id", some (.text (OldStorageNode.blockHash r)))]

/-- **The value of a row that a column of the new database holds.** -/
def valueFor (row : OldRow t) (column : String) : Option Value :=
  (row.rewritten.lookup column).getD (row.value? column)

theorem read_cells (row : OldRow t) : OldRow.read t row.cells = .ok row := by
  -- Values that may be null are read case by case, and storage keys one after the other.
  cases t with
  | nodes => rcases row with ⟨_, _, _, _, _ | _⟩ <;> rfl
  | headers | uncles => rfl
  | transactions => rcases row with ⟨_, _, _, _, _, _, _, _, _ | _, _ | _, _⟩ <;> rfl
  | accessListElements =>
    rcases row with ⟨number, hash, index, address, keys⟩
    have hkeys : ResultRow.get (cells (t := .accessListElements)
        (OldAccessListElement.mk number hash index address keys)) "storage_keys" = .ok keys :=
      ResultRow.get_eq_ok rfl rfl (ofValue?_storageKeys keys)
    rw [read, OldAccessListElement.read]
    cases address <;>
    · rw [hkeys]
      rfl
  | receipts => rcases row with ⟨_, _, _, _, _ | _, _ | _, _ | _, _ | _, _ | _⟩ <;> rfl
  | logs => rcases row with ⟨_, _, _, _, _, _, _ | _, _ | _, _ | _, _ | _, _ | _⟩ <;> rfl
  | logRepair => rcases row with ⟨_, _, _, _, _, _, _ | _, _ | _, _ | _, _ | _, _ | _⟩ <;> rfl
  | state => rcases row with ⟨_, _, _ | _, _ | _, _, _, _, _⟩ <;> rfl
  | accounts => rcases row with ⟨_, _, _ | _, _, _, _, _⟩ <;> rfl
  | storage => rcases row with ⟨_, _, _ | _, _ | _, _ | _, _, _, _, _⟩ <;> rfl

/-- **What a row becomes holds its values**, column by column. -/
theorem Becomes.bound_eq {row : OldRow t} {new : NewRow t} (h : row.Becomes new) :
    (NewRow.fields t).map (fun field => row.valueFor field.name) = new.bound.map some := by
  cases t with
  | nodes | uncles | accessListElements | receipts | logs | storage =>
    obtain ⟨w, next, h⟩ := h
    cases h
    rfl
  | state | accounts =>
    obtain ⟨height, -, hnew⟩ := (OldRow.becomes_iff_renewedAt (by decide)).mp h
    cases hnew
    rfl
  | headers =>
    obtain ⟨height, hheight, hnew⟩ := (OldRow.becomes_iff_renewedAt (by decide)).mp h
    cases hnew with
    | header hnumber hcoinbase =>
      obtain ⟨-, rfl⟩ := toInt_eq_iff.mp hnumber
      simp only [valueFor, rewritten, hheight, hcoinbase]
      rfl
  | transactions =>
    obtain ⟨w, next, h⟩ := h
    obtain ⟨new', h, hnew⟩ := map_eq_ok.mp h
    cases hnew
    obtain ⟨value, hvalue, h⟩ := bind_eq_ok.mp h
    cases h
    simp only [valueFor, rewritten, mapError_eq_ok.mp hvalue]
    rfl
  | logRepair =>
    obtain ⟨log, hproved, rfl⟩ := StoredLog.becomes_iff.mp h
    have hlog : StoredLog.canonical row = .ok log := StoredLog.canonical_eq_ok.mpr hproved.described
    simp only [valueFor, rewritten, hlog, ← hproved.key]
    rfl

end OldRow

/-! ### All rows of a table -/

theorem NewRows.length_columns (new : NewRows) :
    new.columns.length = (NewRow.fields new.table).length := by
  rw [columns, List.length_map, List.length_range]

theorem NewRows.getElem?_columns {new : NewRows} {k : Nat} {field : Field}
    (h : (NewRow.fields new.table)[k]? = some field) :
    new.columns[k]? = some (new.rows.map fun row => row.bound.getD k .null) := by
  have hlt := (List.getElem?_eq_some_iff.mp h).1
  rw [columns, List.getElem?_map, List.getElem?_range hlt, Option.map_some]

theorem OldRow.Becomes.exists_value {row : OldRow t} {new : NewRow t} {k : Nat} {field : Field}
    (h : row.Becomes new) (hfield : (NewRow.fields t)[k]? = some field) :
    ∃ v, row.valueFor field.name = some v ∧ new.bound.getD k .null = v := by
  have hk := congrArg (·[k]?) h.bound_eq
  simp only [List.getElem?_map, hfield, Option.map_some] at hk
  obtain ⟨v, hv, hvalue⟩ := Option.map_eq_some_iff.mp hk.symm
  exact ⟨v, hvalue.symm, by rw [List.getD_eq_getElem?_getD, hv, Option.getD_some]⟩

/-- **Every value reaches the column it is for.** When the rows of a table are upgraded, there is
one array for each parameter of the insert of the table, with one element for each row. Each column
that the text of the insert names is filled from an array that holds, at the position of each old
row, the value of that row for the column. The values that are kept are those of the columns of the
same name that the row is read from. Rows of another table are never upgraded. -/
theorem Table.upgrade_columns (t : Table) (range : BlockRange) :
    (∀ row : OldRow t, OldRow.read t row.cells = .ok row) ∧
    (∀ (rows : List (OldRow t)) (upgraded : Upgraded),
      t.upgrade range ⟨t, rows⟩ = .ok upgraded →
        ∃ insert, Sql.Insert.read t.writeQuery = some insert ∧
          insert.columns = (NewRow.fields t).map (·.name) ∧
          Sql.parametersOf t.writeQuery = List.range' 1 upgraded.rows.columns.length ∧
          (∀ array ∈ upgraded.rows.columns, array.length = rows.length) ∧
          ∀ column ∈ insert.columns, ∃ array,
            insert.array? upgraded.rows.columns column = some array ∧
              ∀ (i : Nat) (row : OldRow t), rows[i]? = some row →
                ∃ v, row.valueFor column = some v ∧ array[i]? = some v) ∧
    ∀ old : OldRows, old.table ≠ t → t.upgrade range old = .error (.wrongTable t old.table) := by
  refine ⟨OldRow.read_cells, fun rows upgraded h => ?_, fun old hold => if_neg hold⟩
  obtain ⟨rows', news, w, hrows, rfl, -, hall⟩ := Table.upgrade_eq_ok.mp h
  cases hrows
  obtain ⟨insert, hread, hcolumns, hsources⟩ := Sql.exists_insert t
  refine ⟨insert, hread, hcolumns, ?_, fun array harray => ?_, fun column hcolumn => ?_⟩
  · rw [NewRows.length_columns, Sql.parametersOf_writeQuery]
  · obtain ⟨k, -, rfl⟩ := List.mem_map.mp harray
    rw [List.length_map, hall.length_eq]
  · obtain ⟨k, hk, harray⟩ := insert.exists_array?_eq hsources hcolumn _
    rw [hcolumns, List.getElem?_map] at hk
    obtain ⟨field, hfield, rfl⟩ := Option.map_eq_some_iff.mp hk
    refine ⟨_, harray.trans (NewRows.getElem?_columns hfield), fun i row hrow => ?_⟩
    obtain ⟨hi, rfl⟩ := List.getElem?_eq_some_iff.mp hrow
    have hi' : i < news.length := hall.length_eq ▸ hi
    obtain ⟨v, hvalue, hv⟩ := (hall.get hi hi').exists_value hfield
    exact ⟨v, hvalue, by rw [List.getElem?_map, List.getElem?_eq_getElem hi', ← hv]; rfl⟩

/-- Two elements of access lists: the second one has its storage keys in the array for them. -/
theorem Table.upgrade_columns_accessListElements :
    let range : BlockRange := ⟨5, 6, by decide, by decide⟩
    let element (hash : String) (keys : Option (List String)) : OldRow .accessListElements :=
      (⟨"5", hash, 0, none, keys⟩ : OldAccessListElement)
    let rows := [element "0xa" none, element "0xb" (some ["0x1", "0x2"])]
    ∃ insert upgraded array, Sql.Insert.read Table.accessListElements.writeQuery = some insert ∧
      Table.accessListElements.upgrade range ⟨.accessListElements, rows⟩ = .ok upgraded ∧
      insert.array? upgraded.rows.columns "storage_keys" = some array ∧
      array[1]? = some (.text "\x7b0x1,0x2\x7d") := by
  intro range element rows
  obtain ⟨insert, hread, hcolumns, -, -, hvalues⟩ :=
    (upgrade_columns .accessListElements range).2.1 rows _ rfl
  have hcolumn : "storage_keys" ∈ insert.columns := by
    rw [hcolumns]
    decide
  obtain ⟨array, harray, hrows⟩ := hvalues "storage_keys" hcolumn
  obtain ⟨v, hvalue, hv⟩ := hrows 1 _ rfl
  have hv' : some v = some (.text "\x7b0x1,0x2\x7d") := hvalue.symm.trans (by decide +kernel)
  exact ⟨insert, _, array, hread, rfl, harray, hv.trans hv'⟩

end ChainMigration
