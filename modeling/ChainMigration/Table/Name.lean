import ChainMigration.Text.Blank
import ChainMigration.Text.Lowercase

/-! # Tables

The tables that can be migrated, their names and the other spellings under which they are known. -/

namespace ChainMigration

/-- A table that can be migrated. -/
inductive Table
  | nodes
  | headers
  | uncles
  | transactions
  | accessListElements
  | receipts
  | logs
  /-- The blobs of migrated logs that are missing from the blob store. -/
  | logRepair
  | state
  | accounts
  | storage
deriving DecidableEq

namespace Table

/-- All tables. -/
def all : List Table :=
  [nodes, headers, uncles, transactions, accessListElements, receipts, logs, logRepair, state,
    accounts, storage]

theorem mem_all (t : Table) : t ∈ all := by cases t <;> decide

/-- The name of a table in messages, reports and gap files. -/
def name : Table → String
  | nodes => "nodes"
  | headers => "header_cids"
  | uncles => "uncle_cids"
  | transactions => "transaction_cids"
  | accessListElements => "access_list_elements"
  | receipts => "receipt_cids"
  | logs => "log_cids"
  | logRepair => "log_cids_repair"
  | state => "state_cids"
  | accounts => "state_accounts"
  | storage => "storage_cids"

/-- Every spelling of a table, in lowercase. -/
def spellings : Table → List String
  | nodes => ["public.nodes", "nodes", "public-nodes"]
  | headers => ["eth.header_cids", "header_cids", "headers"]
  | uncles => ["eth.uncle_cids", "uncle_cids", "uncles"]
  | transactions =>
    ["eth.transaction_cids", "transaction_cids", "transactions", "txs", "trxs"]
  | accessListElements =>
    ["eth.access_list_elements", "access_list_elements", "access_list", "access-list-elements"]
  | receipts => ["eth.receipt_cids", "receipt_cids", "receipts", "rcts"]
  | logs => ["eth.log_cids", "log_cids", "logs"]
  | logRepair => ["eth.log_cids.repair", "log_cids_repair", "log_repair", "logs-repair"]
  | state => ["eth.state_cids", "state_cids", "state"]
  | accounts => ["eth.state_accounts", "state_accounts", "accounts"]
  | storage => ["eth.storage_cids", "storage_cids", "storage"]

/-- The table of a spelling, whatever its case and the blanks around it. -/
def ofText? (text : String) : Option Table :=
  let spelling := Text.lowercase (Text.trim text)
  all.find? (·.spellings.contains spelling)

instance : ToString Table := ⟨name⟩

end Table

end ChainMigration
