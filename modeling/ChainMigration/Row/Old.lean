import ChainMigration.Row.Value
import ChainMigration.Table.Name

/-! # Rows before the migration

For each table a row model with its columns in the order of the query, the way to read it from a
result row, and its values. -/

namespace ChainMigration

/-- A list of texts, none of them null. -/
def keyTexts (keys : List String) : Value := .texts (keys.map some)

/-- A node that supplied data; both databases hold the same columns. -/
structure NodeRow where
  clientName : String
  genesisBlock : String
  networkId : String
  nodeId : String
  chainId : Option Int32
deriving DecidableEq

/-- The columns of the row, in order. -/
def NodeRow.fields : List Field :=
  [⟨"client_name", .text, false⟩, ⟨"genesis_block", .text, false⟩, ⟨"network_id", .text, false⟩,
  ⟨"node_id", .text, false⟩, ⟨"chain_id", .int4, true⟩]

/-- The values of the columns, in order. -/
def NodeRow.values (r : NodeRow) : List Value :=
  [.text r.clientName, .text r.genesisBlock, .text r.networkId, .text r.nodeId,
  .ofOption .integer r.chainId]

/-- Reads the columns in order; the first that fails decides the error. -/
def NodeRow.read (row : ResultRow) : Except CellError NodeRow := do
  let clientName ← row.get "client_name"
  let genesisBlock ← row.get "genesis_block"
  let networkId ← row.get "network_id"
  let nodeId ← row.get "node_id"
  let chainId ← row.get "chain_id"
  return ⟨clientName, genesisBlock, networkId, nodeId, chainId⟩

/-- A block header with its encoded form. -/
structure OldHeader where
  blockNumber : String
  blockHash : String
  parentHash : String
  cid : String
  mhKey : String
  td : String
  nodeId : String
  reward : String
  stateRoot : String
  uncleRoot : String
  txRoot : String
  receiptRoot : String
  bloom : Bytes
  timestamp : Int64
  timesValidated : Int64
  data : Bytes
deriving DecidableEq

/-- The columns of the row, in order. -/
def OldHeader.fields : List Field :=
  [⟨"block_number", .text, false⟩, ⟨"block_hash", .text, false⟩, ⟨"parent_hash", .text, false⟩,
  ⟨"cid", .text, false⟩, ⟨"mh_key", .text, false⟩, ⟨"td", .text, false⟩, ⟨"node_id", .text, false⟩,
  ⟨"reward", .text, false⟩, ⟨"state_root", .text, false⟩, ⟨"uncle_root", .text, false⟩,
  ⟨"tx_root", .text, false⟩, ⟨"receipt_root", .text, false⟩, ⟨"bloom", .bytea, false⟩,
  ⟨"timestamp", .int8, false⟩, ⟨"times_validated", .int8, false⟩, ⟨"data", .bytea, false⟩]

/-- The values of the columns, in order. -/
def OldHeader.values (r : OldHeader) : List Value :=
  [.text r.blockNumber, .text r.blockHash, .text r.parentHash, .text r.cid, .text r.mhKey,
  .text r.td, .text r.nodeId, .text r.reward, .text r.stateRoot, .text r.uncleRoot, .text r.txRoot,
  .text r.receiptRoot, .bytes r.bloom, .bigint r.timestamp, .bigint r.timesValidated, .bytes r.data]

/-- Reads the columns in order; the first that fails decides the error. -/
def OldHeader.read (row : ResultRow) : Except CellError OldHeader := do
  let blockNumber ← row.get "block_number"
  let blockHash ← row.get "block_hash"
  let parentHash ← row.get "parent_hash"
  let cid ← row.get "cid"
  let mhKey ← row.get "mh_key"
  let td ← row.get "td"
  let nodeId ← row.get "node_id"
  let reward ← row.get "reward"
  let stateRoot ← row.get "state_root"
  let uncleRoot ← row.get "uncle_root"
  let txRoot ← row.get "tx_root"
  let receiptRoot ← row.get "receipt_root"
  let bloom ← row.get "bloom"
  let timestamp ← row.get "timestamp"
  let timesValidated ← row.get "times_validated"
  let data ← row.get "data"
  return ⟨blockNumber, blockHash, parentHash, cid, mhKey, td, nodeId, reward, stateRoot, uncleRoot,
    txRoot, receiptRoot, bloom, timestamp, timesValidated, data⟩

/-- An uncle of a block, with the hash of the block. -/
structure OldUncle where
  blockNumber : String
  headerHash : String
  blockHash : String
  parentHash : String
  cid : String
  mhKey : String
  reward : String
deriving DecidableEq

/-- The columns of the row, in order. -/
def OldUncle.fields : List Field :=
  [⟨"block_number", .text, false⟩, ⟨"header_hash", .text, false⟩, ⟨"block_hash", .text, false⟩,
  ⟨"parent_hash", .text, false⟩, ⟨"cid", .text, false⟩, ⟨"mh_key", .text, false⟩,
  ⟨"reward", .text, false⟩]

/-- The values of the columns, in order. -/
def OldUncle.values (r : OldUncle) : List Value :=
  [.text r.blockNumber, .text r.headerHash, .text r.blockHash, .text r.parentHash, .text r.cid,
  .text r.mhKey, .text r.reward]

/-- Reads the columns in order; the first that fails decides the error. -/
def OldUncle.read (row : ResultRow) : Except CellError OldUncle := do
  let blockNumber ← row.get "block_number"
  let headerHash ← row.get "header_hash"
  let blockHash ← row.get "block_hash"
  let parentHash ← row.get "parent_hash"
  let cid ← row.get "cid"
  let mhKey ← row.get "mh_key"
  let reward ← row.get "reward"
  return ⟨blockNumber, headerHash, blockHash, parentHash, cid, mhKey, reward⟩

/-- A transaction with the hash of its block and its encoded form. -/
structure OldTransaction where
  blockNumber : String
  blockHash : String
  txHash : String
  index : Int64
  cid : String
  mhKey : String
  dst : String
  src : String
  txData : Option Bytes
  txType : Option Int32
  data : Bytes
deriving DecidableEq

/-- The columns of the row, in order. -/
def OldTransaction.fields : List Field :=
  [⟨"block_number", .text, false⟩, ⟨"block_hash", .text, false⟩, ⟨"tx_hash", .text, false⟩,
  ⟨"index", .int8, false⟩, ⟨"cid", .text, false⟩, ⟨"mh_key", .text, false⟩, ⟨"dst", .text, false⟩,
  ⟨"src", .text, false⟩, ⟨"tx_data", .bytea, true⟩, ⟨"tx_type", .int4, true⟩,
  ⟨"data", .bytea, false⟩]

/-- The values of the columns, in order. -/
def OldTransaction.values (r : OldTransaction) : List Value :=
  [.text r.blockNumber, .text r.blockHash, .text r.txHash, .bigint r.index, .text r.cid,
  .text r.mhKey, .text r.dst, .text r.src, .ofOption .bytes r.txData, .ofOption .integer r.txType,
  .bytes r.data]

/-- Reads the columns in order; the first that fails decides the error. -/
def OldTransaction.read (row : ResultRow) : Except CellError OldTransaction := do
  let blockNumber ← row.get "block_number"
  let blockHash ← row.get "block_hash"
  let txHash ← row.get "tx_hash"
  let index ← row.get "index"
  let cid ← row.get "cid"
  let mhKey ← row.get "mh_key"
  let dst ← row.get "dst"
  let src ← row.get "src"
  let txData ← row.get "tx_data"
  let txType ← row.get "tx_type"
  let data ← row.get "data"
  return ⟨blockNumber, blockHash, txHash, index, cid, mhKey, dst, src, txData, txType, data⟩

/-- An access list element with the hash of its transaction. -/
structure OldAccessListElement where
  blockNumber : String
  txHash : String
  index : Int64
  address : Option String
  storageKeys : Option (List String)
deriving DecidableEq

/-- The columns of the row, in order. -/
def OldAccessListElement.fields : List Field :=
  [⟨"block_number", .text, false⟩, ⟨"tx_hash", .text, false⟩, ⟨"index", .int8, false⟩,
  ⟨"address", .text, true⟩, ⟨"storage_keys", .textArray, true⟩]

/-- The values of the columns, in order. -/
def OldAccessListElement.values (r : OldAccessListElement) : List Value :=
  [.text r.blockNumber, .text r.txHash, .bigint r.index, .ofOption .text r.address,
  .ofOption keyTexts r.storageKeys]

/-- Reads the columns in order; the first that fails decides the error. -/
def OldAccessListElement.read (row : ResultRow) : Except CellError OldAccessListElement := do
  let blockNumber ← row.get "block_number"
  let txHash ← row.get "tx_hash"
  let index ← row.get "index"
  let address ← row.get "address"
  let storageKeys ← row.get "storage_keys"
  return ⟨blockNumber, txHash, index, address, storageKeys⟩

/-- A receipt with the hash of its transaction. -/
structure OldReceipt where
  blockNumber : String
  txHash : String
  leafCid : String
  leafMhKey : String
  postStatus : Option Int64
  postState : Option String
  contract : Option String
  contractHash : Option String
  logRoot : Option String
deriving DecidableEq

/-- The columns of the row, in order. -/
def OldReceipt.fields : List Field :=
  [⟨"block_number", .text, false⟩, ⟨"tx_hash", .text, false⟩, ⟨"leaf_cid", .text, false⟩,
  ⟨"leaf_mh_key", .text, false⟩, ⟨"post_status", .int8, true⟩, ⟨"post_state", .text, true⟩,
  ⟨"contract", .text, true⟩, ⟨"contract_hash", .text, true⟩, ⟨"log_root", .text, true⟩]

/-- The values of the columns, in order. -/
def OldReceipt.values (r : OldReceipt) : List Value :=
  [.text r.blockNumber, .text r.txHash, .text r.leafCid, .text r.leafMhKey,
  .ofOption .bigint r.postStatus, .ofOption .text r.postState, .ofOption .text r.contract,
  .ofOption .text r.contractHash, .ofOption .text r.logRoot]

/-- Reads the columns in order; the first that fails decides the error. -/
def OldReceipt.read (row : ResultRow) : Except CellError OldReceipt := do
  let blockNumber ← row.get "block_number"
  let txHash ← row.get "tx_hash"
  let leafCid ← row.get "leaf_cid"
  let leafMhKey ← row.get "leaf_mh_key"
  let postStatus ← row.get "post_status"
  let postState ← row.get "post_state"
  let contract ← row.get "contract"
  let contractHash ← row.get "contract_hash"
  let logRoot ← row.get "log_root"
  return ⟨blockNumber, txHash, leafCid, leafMhKey, postStatus, postState, contract, contractHash,
    logRoot⟩

/-- A log with the hash of its transaction. -/
structure OldLog where
  blockNumber : String
  txHash : String
  leafCid : String
  leafMhKey : String
  address : String
  index : Int64
  logData : Option Bytes
  topic0 : Option String
  topic1 : Option String
  topic2 : Option String
  topic3 : Option String
deriving DecidableEq

/-- The columns of the row, in order. -/
def OldLog.fields : List Field :=
  [⟨"block_number", .text, false⟩, ⟨"tx_hash", .text, false⟩, ⟨"leaf_cid", .text, false⟩,
  ⟨"leaf_mh_key", .text, false⟩, ⟨"address", .text, false⟩, ⟨"index", .int8, false⟩,
  ⟨"log_data", .bytea, true⟩, ⟨"topic0", .text, true⟩, ⟨"topic1", .text, true⟩,
  ⟨"topic2", .text, true⟩, ⟨"topic3", .text, true⟩]

/-- The values of the columns, in order. -/
def OldLog.values (r : OldLog) : List Value :=
  [.text r.blockNumber, .text r.txHash, .text r.leafCid, .text r.leafMhKey, .text r.address,
  .bigint r.index, .ofOption .bytes r.logData, .ofOption .text r.topic0, .ofOption .text r.topic1,
  .ofOption .text r.topic2, .ofOption .text r.topic3]

/-- Reads the columns in order; the first that fails decides the error. -/
def OldLog.read (row : ResultRow) : Except CellError OldLog := do
  let blockNumber ← row.get "block_number"
  let txHash ← row.get "tx_hash"
  let leafCid ← row.get "leaf_cid"
  let leafMhKey ← row.get "leaf_mh_key"
  let address ← row.get "address"
  let index ← row.get "index"
  let logData ← row.get "log_data"
  let topic0 ← row.get "topic0"
  let topic1 ← row.get "topic1"
  let topic2 ← row.get "topic2"
  let topic3 ← row.get "topic3"
  return ⟨blockNumber, txHash, leafCid, leafMhKey, address, index, logData, topic0, topic1, topic2,
    topic3⟩

/-- A migrated log whose blob is missing, with the height of its block. -/
structure StoredLog where
  blockNumber : String
  rctId : String
  leafCid : String
  leafMhKey : String
  address : String
  index : Int64
  logData : Option Bytes
  topic0 : Option String
  topic1 : Option String
  topic2 : Option String
  topic3 : Option String
deriving DecidableEq

/-- The columns of the row, in order. -/
def StoredLog.fields : List Field :=
  [⟨"block_number", .text, false⟩, ⟨"rct_id", .text, false⟩, ⟨"leaf_cid", .text, false⟩,
  ⟨"leaf_mh_key", .text, false⟩, ⟨"address", .text, false⟩, ⟨"index", .int8, false⟩,
  ⟨"log_data", .bytea, true⟩, ⟨"topic0", .text, true⟩, ⟨"topic1", .text, true⟩,
  ⟨"topic2", .text, true⟩, ⟨"topic3", .text, true⟩]

/-- The values of the columns, in order. -/
def StoredLog.values (r : StoredLog) : List Value :=
  [.text r.blockNumber, .text r.rctId, .text r.leafCid, .text r.leafMhKey, .text r.address,
  .bigint r.index, .ofOption .bytes r.logData, .ofOption .text r.topic0, .ofOption .text r.topic1,
  .ofOption .text r.topic2, .ofOption .text r.topic3]

/-- Reads the columns in order; the first that fails decides the error. -/
def StoredLog.read (row : ResultRow) : Except CellError StoredLog := do
  let blockNumber ← row.get "block_number"
  let rctId ← row.get "rct_id"
  let leafCid ← row.get "leaf_cid"
  let leafMhKey ← row.get "leaf_mh_key"
  let address ← row.get "address"
  let index ← row.get "index"
  let logData ← row.get "log_data"
  let topic0 ← row.get "topic0"
  let topic1 ← row.get "topic1"
  let topic2 ← row.get "topic2"
  let topic3 ← row.get "topic3"
  return ⟨blockNumber, rctId, leafCid, leafMhKey, address, index, logData, topic0, topic1, topic2,
    topic3⟩

/-- A state node with the hash of its block. -/
structure OldStateNode where
  blockNumber : String
  blockHash : String
  statePath : Option Bytes
  stateLeafKey : Option String
  nodeType : Int32
  cid : String
  mhKey : String
  diff : Bool
deriving DecidableEq

/-- The columns of the row, in order. -/
def OldStateNode.fields : List Field :=
  [⟨"block_number", .text, false⟩, ⟨"block_hash", .text, false⟩, ⟨"state_path", .bytea, true⟩,
  ⟨"state_leaf_key", .text, true⟩, ⟨"node_type", .int4, false⟩, ⟨"cid", .text, false⟩,
  ⟨"mh_key", .text, false⟩, ⟨"diff", .bool, false⟩]

/-- The values of the columns, in order. -/
def OldStateNode.values (r : OldStateNode) : List Value :=
  [.text r.blockNumber, .text r.blockHash, .ofOption .bytes r.statePath,
  .ofOption .text r.stateLeafKey, .integer r.nodeType, .text r.cid, .text r.mhKey, .bool r.diff]

/-- Reads the columns in order; the first that fails decides the error. -/
def OldStateNode.read (row : ResultRow) : Except CellError OldStateNode := do
  let blockNumber ← row.get "block_number"
  let blockHash ← row.get "block_hash"
  let statePath ← row.get "state_path"
  let stateLeafKey ← row.get "state_leaf_key"
  let nodeType ← row.get "node_type"
  let cid ← row.get "cid"
  let mhKey ← row.get "mh_key"
  let diff ← row.get "diff"
  return ⟨blockNumber, blockHash, statePath, stateLeafKey, nodeType, cid, mhKey, diff⟩

/-- An account with the hash of its block and the path of its state node. -/
structure OldAccount where
  blockNumber : String
  blockHash : String
  statePath : Option Bytes
  balance : String
  nonce : Int64
  codeHash : Bytes
  storageRoot : String
deriving DecidableEq

/-- The columns of the row, in order. -/
def OldAccount.fields : List Field :=
  [⟨"block_number", .text, false⟩, ⟨"block_hash", .text, false⟩, ⟨"state_path", .bytea, true⟩,
  ⟨"balance", .text, false⟩, ⟨"nonce", .int8, false⟩, ⟨"code_hash", .bytea, false⟩,
  ⟨"storage_root", .text, false⟩]

/-- The values of the columns, in order. -/
def OldAccount.values (r : OldAccount) : List Value :=
  [.text r.blockNumber, .text r.blockHash, .ofOption .bytes r.statePath, .text r.balance,
  .bigint r.nonce, .bytes r.codeHash, .text r.storageRoot]

/-- Reads the columns in order; the first that fails decides the error. -/
def OldAccount.read (row : ResultRow) : Except CellError OldAccount := do
  let blockNumber ← row.get "block_number"
  let blockHash ← row.get "block_hash"
  let statePath ← row.get "state_path"
  let balance ← row.get "balance"
  let nonce ← row.get "nonce"
  let codeHash ← row.get "code_hash"
  let storageRoot ← row.get "storage_root"
  return ⟨blockNumber, blockHash, statePath, balance, nonce, codeHash, storageRoot⟩

/-- A storage node with the hash of its block and the path of its state node. -/
structure OldStorageNode where
  blockNumber : String
  blockHash : String
  statePath : Option Bytes
  storagePath : Option Bytes
  storageLeafKey : Option String
  nodeType : Int32
  cid : String
  mhKey : String
  diff : Bool
deriving DecidableEq

/-- The columns of the row, in order. -/
def OldStorageNode.fields : List Field :=
  [⟨"block_number", .text, false⟩, ⟨"block_hash", .text, false⟩, ⟨"state_path", .bytea, true⟩,
  ⟨"storage_path", .bytea, true⟩, ⟨"storage_leaf_key", .text, true⟩, ⟨"node_type", .int4, false⟩,
  ⟨"cid", .text, false⟩, ⟨"mh_key", .text, false⟩, ⟨"diff", .bool, false⟩]

/-- The values of the columns, in order. -/
def OldStorageNode.values (r : OldStorageNode) : List Value :=
  [.text r.blockNumber, .text r.blockHash, .ofOption .bytes r.statePath,
  .ofOption .bytes r.storagePath, .ofOption .text r.storageLeafKey, .integer r.nodeType,
  .text r.cid, .text r.mhKey, .bool r.diff]

/-- Reads the columns in order; the first that fails decides the error. -/
def OldStorageNode.read (row : ResultRow) : Except CellError OldStorageNode := do
  let blockNumber ← row.get "block_number"
  let blockHash ← row.get "block_hash"
  let statePath ← row.get "state_path"
  let storagePath ← row.get "storage_path"
  let storageLeafKey ← row.get "storage_leaf_key"
  let nodeType ← row.get "node_type"
  let cid ← row.get "cid"
  let mhKey ← row.get "mh_key"
  let diff ← row.get "diff"
  return ⟨blockNumber, blockHash, statePath, storagePath, storageLeafKey, nodeType, cid, mhKey,
    diff⟩

/-- The row model of a table before the migration. -/
def OldRow : Table → Type
  | .nodes => NodeRow
  | .headers => OldHeader
  | .uncles => OldUncle
  | .transactions => OldTransaction
  | .accessListElements => OldAccessListElement
  | .receipts => OldReceipt
  | .logs => OldLog
  | .logRepair => StoredLog
  | .state => OldStateNode
  | .accounts => OldAccount
  | .storage => OldStorageNode

namespace OldRow

instance : (t : Table) → DecidableEq (OldRow t)
  | .nodes => inferInstanceAs (DecidableEq NodeRow)
  | .headers => inferInstanceAs (DecidableEq OldHeader)
  | .uncles => inferInstanceAs (DecidableEq OldUncle)
  | .transactions => inferInstanceAs (DecidableEq OldTransaction)
  | .accessListElements => inferInstanceAs (DecidableEq OldAccessListElement)
  | .receipts => inferInstanceAs (DecidableEq OldReceipt)
  | .logs => inferInstanceAs (DecidableEq OldLog)
  | .logRepair => inferInstanceAs (DecidableEq StoredLog)
  | .state => inferInstanceAs (DecidableEq OldStateNode)
  | .accounts => inferInstanceAs (DecidableEq OldAccount)
  | .storage => inferInstanceAs (DecidableEq OldStorageNode)

/-- The columns of a table's rows. -/
def fields : Table → List Field
  | .nodes => NodeRow.fields
  | .headers => OldHeader.fields
  | .uncles => OldUncle.fields
  | .transactions => OldTransaction.fields
  | .accessListElements => OldAccessListElement.fields
  | .receipts => OldReceipt.fields
  | .logs => OldLog.fields
  | .logRepair => StoredLog.fields
  | .state => OldStateNode.fields
  | .accounts => OldAccount.fields
  | .storage => OldStorageNode.fields

/-- The values of a row, in the order of the columns. -/
def values : {t : Table} → OldRow t → List Value
  | .nodes, r => NodeRow.values r
  | .headers, r => OldHeader.values r
  | .uncles, r => OldUncle.values r
  | .transactions, r => OldTransaction.values r
  | .accessListElements, r => OldAccessListElement.values r
  | .receipts, r => OldReceipt.values r
  | .logs, r => OldLog.values r
  | .logRepair, r => StoredLog.values r
  | .state, r => OldStateNode.values r
  | .accounts, r => OldAccount.values r
  | .storage, r => OldStorageNode.values r

/-- Reads a row of a table's query result. -/
def read : (t : Table) → ResultRow → Except CellError (OldRow t)
  | .nodes, row => NodeRow.read row
  | .headers, row => OldHeader.read row
  | .uncles, row => OldUncle.read row
  | .transactions, row => OldTransaction.read row
  | .accessListElements, row => OldAccessListElement.read row
  | .receipts, row => OldReceipt.read row
  | .logs, row => OldLog.read row
  | .logRepair, row => StoredLog.read row
  | .state, row => OldStateNode.read row
  | .accounts, row => OldAccount.read row
  | .storage, row => OldStorageNode.read row

end OldRow

/-- Rows of one table as they were read. -/
structure OldRows where
  table : Table
  rows : List (OldRow table)
deriving DecidableEq

/-- Reads the result of a table's query. -/
def OldRows.read (t : Table) (rows : List ResultRow) : Except CellError OldRows := do
  return ⟨t, ← rows.mapM (OldRow.read t)⟩

end ChainMigration
