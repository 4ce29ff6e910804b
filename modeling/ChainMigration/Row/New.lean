import ChainMigration.Row.Old

/-! # Rows after the migration

For each table the row model of the new database, its columns and values, and the arrays that an
insert binds, one for each column. -/

namespace ChainMigration

/-- A block header with its beneficiary. -/
structure NewHeader where
  blockNumber : Int64
  blockHash : String
  parentHash : String
  cid : String
  mhKey : String
  td : String
  nodeId : String
  reward : String
  stateRoot : String
  uncleRoot : String
  txRoot : String
  receiptRoot : String
  bloom : Bytes
  timestamp : Int64
  timesValidated : Int64
  coinbase : String
deriving DecidableEq

/-- The columns of the row, in order. -/
def NewHeader.fields : List Field :=
  [⟨"block_number", .int8, false⟩, ⟨"block_hash", .text, false⟩, ⟨"parent_hash", .text, false⟩,
  ⟨"cid", .text, false⟩, ⟨"mh_key", .text, false⟩, ⟨"td", .text, false⟩, ⟨"node_id", .text, false⟩,
  ⟨"reward", .text, false⟩, ⟨"state_root", .text, false⟩, ⟨"uncle_root", .text, false⟩,
  ⟨"tx_root", .text, false⟩, ⟨"receipt_root", .text, false⟩, ⟨"bloom", .bytea, false⟩,
  ⟨"timestamp", .int8, false⟩, ⟨"times_validated", .int8, false⟩, ⟨"coinbase", .text, false⟩]

/-- The values of the columns, in order. -/
def NewHeader.values (r : NewHeader) : List Value :=
  [.bigint r.blockNumber, .text r.blockHash, .text r.parentHash, .text r.cid, .text r.mhKey,
  .text r.td, .text r.nodeId, .text r.reward, .text r.stateRoot, .text r.uncleRoot, .text r.txRoot,
  .text r.receiptRoot, .bytes r.bloom, .bigint r.timestamp, .bigint r.timesValidated,
  .text r.coinbase]

/-- An uncle, which refers to its block by hash. -/
structure NewUncle where
  headerId : String
  blockHash : String
  parentHash : String
  cid : String
  mhKey : String
  reward : String
deriving DecidableEq

/-- The columns of the row, in order. -/
def NewUncle.fields : List Field :=
  [⟨"header_id", .text, false⟩, ⟨"block_hash", .text, false⟩, ⟨"parent_hash", .text, false⟩,
  ⟨"cid", .text, false⟩, ⟨"mh_key", .text, false⟩, ⟨"reward", .text, false⟩]

/-- The values of the columns, in order. -/
def NewUncle.values (r : NewUncle) : List Value :=
  [.text r.headerId, .text r.blockHash, .text r.parentHash, .text r.cid, .text r.mhKey,
  .text r.reward]

/-- A transaction with its value, which refers to its block by hash. -/
structure NewTransaction where
  headerId : String
  index : Int64
  txHash : String
  cid : String
  mhKey : String
  dst : String
  src : String
  txData : Option Bytes
  txType : Int32
  value : String
deriving DecidableEq

/-- The columns of the row, in order. -/
def NewTransaction.fields : List Field :=
  [⟨"header_id", .text, false⟩, ⟨"index", .int8, false⟩, ⟨"tx_hash", .text, false⟩,
  ⟨"cid", .text, false⟩, ⟨"mh_key", .text, false⟩, ⟨"dst", .text, false⟩, ⟨"src", .text, false⟩,
  ⟨"tx_data", .bytea, true⟩, ⟨"tx_type", .int4, false⟩, ⟨"value", .text, false⟩]

/-- The values of the columns, in order. -/
def NewTransaction.values (r : NewTransaction) : List Value :=
  [.text r.headerId, .bigint r.index, .text r.txHash, .text r.cid, .text r.mhKey, .text r.dst,
  .text r.src, .ofOption .bytes r.txData, .integer r.txType, .text r.value]

/-- An access list element, which refers to its transaction by hash. -/
structure NewAccessListElement where
  txId : String
  index : Int64
  address : Option String
  storageKeys : Option (List String)
deriving DecidableEq

/-- The columns of the row, in order. -/
def NewAccessListElement.fields : List Field :=
  [⟨"tx_id", .text, false⟩, ⟨"index", .int8, false⟩, ⟨"address", .text, true⟩,
  ⟨"storage_keys", .textArray, true⟩]

/-- The values of the columns, in order. -/
def NewAccessListElement.values (r : NewAccessListElement) : List Value :=
  [.text r.txId, .bigint r.index, .ofOption .text r.address, .ofOption keyTexts r.storageKeys]

/-- A receipt, which refers to its transaction by hash. -/
structure NewReceipt where
  txId : String
  leafCid : String
  leafMhKey : String
  postStatus : Option Int64
  postState : Option String
  contract : Option String
  contractHash : Option String
  logRoot : Option String
deriving DecidableEq

/-- The columns of the row, in order. -/
def NewReceipt.fields : List Field :=
  [⟨"tx_id", .text, false⟩, ⟨"leaf_cid", .text, false⟩, ⟨"leaf_mh_key", .text, false⟩,
  ⟨"post_status", .int8, true⟩, ⟨"post_state", .text, true⟩, ⟨"contract", .text, true⟩,
  ⟨"contract_hash", .text, true⟩, ⟨"log_root", .text, true⟩]

/-- The values of the columns, in order. -/
def NewReceipt.values (r : NewReceipt) : List Value :=
  [.text r.txId, .text r.leafCid, .text r.leafMhKey, .ofOption .bigint r.postStatus,
  .ofOption .text r.postState, .ofOption .text r.contract, .ofOption .text r.contractHash,
  .ofOption .text r.logRoot]

/-- A log, which refers to the transaction that emitted it by hash. -/
structure NewLog where
  rctId : String
  leafCid : String
  leafMhKey : String
  address : String
  index : Int64
  logData : Option Bytes
  topic0 : Option String
  topic1 : Option String
  topic2 : Option String
  topic3 : Option String
deriving DecidableEq

/-- The columns of the row, in order. -/
def NewLog.fields : List Field :=
  [⟨"rct_id", .text, false⟩, ⟨"leaf_cid", .text, false⟩, ⟨"leaf_mh_key", .text, false⟩,
  ⟨"address", .text, false⟩, ⟨"index", .int8, false⟩, ⟨"log_data", .bytea, true⟩,
  ⟨"topic0", .text, true⟩, ⟨"topic1", .text, true⟩, ⟨"topic2", .text, true⟩,
  ⟨"topic3", .text, true⟩]

/-- The values of the columns, in order. -/
def NewLog.values (r : NewLog) : List Value :=
  [.text r.rctId, .text r.leafCid, .text r.leafMhKey, .text r.address, .bigint r.index,
  .ofOption .bytes r.logData, .ofOption .text r.topic0, .ofOption .text r.topic1,
  .ofOption .text r.topic2, .ofOption .text r.topic3]

/-- A stored blob under its key. -/
structure Blob where
  key : String
  data : Bytes
deriving DecidableEq

/-- The columns of the row, in order. -/
def Blob.fields : List Field :=
  [⟨"key", .text, false⟩, ⟨"data", .bytea, false⟩]

/-- The values of the columns, in order. -/
def Blob.values (r : Blob) : List Value :=
  [.text r.key, .bytes r.data]

/-- A state node, which refers to its block by hash. -/
structure NewStateNode where
  headerId : String
  statePath : Option Bytes
  stateLeafKey : Option String
  nodeType : Int32
  cid : String
  mhKey : String
  diff : Bool
deriving DecidableEq

/-- The columns of the row, in order. -/
def NewStateNode.fields : List Field :=
  [⟨"header_id", .text, false⟩, ⟨"state_path", .bytea, true⟩, ⟨"state_leaf_key", .text, true⟩,
  ⟨"node_type", .int4, false⟩, ⟨"cid", .text, false⟩, ⟨"mh_key", .text, false⟩,
  ⟨"diff", .bool, false⟩]

/-- The values of the columns, in order. -/
def NewStateNode.values (r : NewStateNode) : List Value :=
  [.text r.headerId, .ofOption .bytes r.statePath, .ofOption .text r.stateLeafKey,
  .integer r.nodeType, .text r.cid, .text r.mhKey, .bool r.diff]

/-- An account, which refers to its state node by block hash and path. -/
structure NewAccount where
  headerId : String
  statePath : Option Bytes
  balance : String
  nonce : Int64
  codeHash : Bytes
  storageRoot : String
deriving DecidableEq

/-- The columns of the row, in order. -/
def NewAccount.fields : List Field :=
  [⟨"header_id", .text, false⟩, ⟨"state_path", .bytea, true⟩, ⟨"balance", .text, false⟩,
  ⟨"nonce", .int8, false⟩, ⟨"code_hash", .bytea, false⟩, ⟨"storage_root", .text, false⟩]

/-- The values of the columns, in order. -/
def NewAccount.values (r : NewAccount) : List Value :=
  [.text r.headerId, .ofOption .bytes r.statePath, .text r.balance, .bigint r.nonce,
  .bytes r.codeHash, .text r.storageRoot]

/-- A storage node, which refers to its state node by block hash and path. -/
structure NewStorageNode where
  headerId : String
  statePath : Option Bytes
  storagePath : Option Bytes
  storageLeafKey : Option String
  nodeType : Int32
  cid : String
  mhKey : String
  diff : Bool
deriving DecidableEq

/-- The columns of the row, in order. -/
def NewStorageNode.fields : List Field :=
  [⟨"header_id", .text, false⟩, ⟨"state_path", .bytea, true⟩, ⟨"storage_path", .bytea, true⟩,
  ⟨"storage_leaf_key", .text, true⟩, ⟨"node_type", .int4, false⟩, ⟨"cid", .text, false⟩,
  ⟨"mh_key", .text, false⟩, ⟨"diff", .bool, false⟩]

/-- The values of the columns, in order. -/
def NewStorageNode.values (r : NewStorageNode) : List Value :=
  [.text r.headerId, .ofOption .bytes r.statePath, .ofOption .bytes r.storagePath,
  .ofOption .text r.storageLeafKey, .integer r.nodeType, .text r.cid, .text r.mhKey, .bool r.diff]

/-- The storage keys as the text of an array of texts. -/
def NewAccessListElement.keysLiteral (r : NewAccessListElement) : Option String :=
  r.storageKeys.map fun keys => "\x7b" ++ ",".intercalate keys ++ "\x7d"

/-- The values that an insert binds: the storage keys travel as the text of an array. -/
def NewAccessListElement.bound (r : NewAccessListElement) : List Value :=
  [.text r.txId, .bigint r.index, .ofOption .text r.address, .ofOption .text r.keysLiteral]

/-- The row model of a table after the migration. -/
def NewRow : Table → Type
  | .nodes => NodeRow
  | .headers => NewHeader
  | .uncles => NewUncle
  | .transactions => NewTransaction
  | .accessListElements => NewAccessListElement
  | .receipts => NewReceipt
  | .logs => NewLog
  | .logRepair => Blob
  | .state => NewStateNode
  | .accounts => NewAccount
  | .storage => NewStorageNode

namespace NewRow

instance : (t : Table) → DecidableEq (NewRow t)
  | .nodes => inferInstanceAs (DecidableEq NodeRow)
  | .headers => inferInstanceAs (DecidableEq NewHeader)
  | .uncles => inferInstanceAs (DecidableEq NewUncle)
  | .transactions => inferInstanceAs (DecidableEq NewTransaction)
  | .accessListElements => inferInstanceAs (DecidableEq NewAccessListElement)
  | .receipts => inferInstanceAs (DecidableEq NewReceipt)
  | .logs => inferInstanceAs (DecidableEq NewLog)
  | .logRepair => inferInstanceAs (DecidableEq Blob)
  | .state => inferInstanceAs (DecidableEq NewStateNode)
  | .accounts => inferInstanceAs (DecidableEq NewAccount)
  | .storage => inferInstanceAs (DecidableEq NewStorageNode)

/-- The columns of a table's new rows. -/
def fields : Table → List Field
  | .nodes => NodeRow.fields
  | .headers => NewHeader.fields
  | .uncles => NewUncle.fields
  | .transactions => NewTransaction.fields
  | .accessListElements => NewAccessListElement.fields
  | .receipts => NewReceipt.fields
  | .logs => NewLog.fields
  | .logRepair => Blob.fields
  | .state => NewStateNode.fields
  | .accounts => NewAccount.fields
  | .storage => NewStorageNode.fields

/-- The values of a row, in the order of the columns. -/
def values : {t : Table} → NewRow t → List Value
  | .nodes, r => NodeRow.values r
  | .headers, r => NewHeader.values r
  | .uncles, r => NewUncle.values r
  | .transactions, r => NewTransaction.values r
  | .accessListElements, r => NewAccessListElement.values r
  | .receipts, r => NewReceipt.values r
  | .logs, r => NewLog.values r
  | .logRepair, r => Blob.values r
  | .state, r => NewStateNode.values r
  | .accounts, r => NewAccount.values r
  | .storage, r => NewStorageNode.values r

/-- The values that an insert binds for a row, in the order of the columns. -/
def bound : {t : Table} → NewRow t → List Value
  | .accessListElements, r => NewAccessListElement.bound r
  | _, r => r.values

end NewRow

/-- Rows of one table as they are written. -/
structure NewRows where
  table : Table
  rows : List (NewRow table)
deriving DecidableEq

/-- One array for each column of an insert, with one element for each row. -/
def NewRows.columns (new : NewRows) : List (List Value) :=
  (List.range (NewRow.fields new.table).length).map fun i =>
    new.rows.map fun row => row.bound.getD i .null

end ChainMigration
