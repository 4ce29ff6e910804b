import ChainMigration.Block.Heights
import ChainMigration.Chain.Beneficiary
import ChainMigration.Chain.BlobKey
import ChainMigration.Chain.Log
import ChainMigration.Chain.TransactionValue
import ChainMigration.Row.New
import ChainMigration.Table.Catalog
import ChainMigration.Text.Decimal

/-! # Upgrading rows

Old rows of one table become new rows, one for each in the same order. Tables that promise rows at
every height also yield the runs of heights that no row has. The first row at fault decides the
error, and then there are no new rows at all. -/

namespace ChainMigration

/-- Why rows cannot be upgraded. -/
inductive UpgradeError
  /-- The rows belong to another table. -/
  | wrongTable (expected actual : Table)
  /-- The text of a block number is no number. -/
  | height (raw : String) (reason : Text.NumberError)
  /-- The text of the block number of an account is no number. -/
  | accountHeight (blockHash raw : String) (reason : Text.NumberError)
  /-- A height breaks the order of the rows. -/
  | continuity (reason : HeightError)
  /-- An encoded block header cannot be read. -/
  | header (blockHash : String) (reason : Chain.CodecError)
  /-- A height does not fit the new column. -/
  | bigint (number : Nat)
  /-- An encoded transaction cannot be read. -/
  | transaction (hash : String) (reason : Chain.CodecError)
  /-- The columns of a log do not describe one. -/
  | log (receipt : String) (index : Int64) (reason : Chain.CodecError)
  /-- The key stored with a log is not the key of its blob. -/
  | key (receipt : String) (index : Int64) (stored derived : String)
  /-- A cause in words. -/
  | other (message : String)
deriving DecidableEq

/-- The wording of a block number that is none. -/
def badHeightText (raw : String) (reason : Text.NumberError) : String :=
  "unparseable block number '" ++ raw ++ "': " ++ reason.message

/-- The wording of an upgrade error. -/
def UpgradeError.message : UpgradeError → String
  | .wrongTable expected actual => s!"expected {expected} rows, got {actual} rows"
  | .height raw reason => badHeightText raw reason
  | .accountHeight blockHash raw reason => s!"account at {blockHash}: {badHeightText raw reason}"
  | .continuity reason => reason.message
  | .header blockHash reason => s!"header {blockHash}: {reason.message}"
  | .bigint number => s!"block number {number} exceeds BIGINT"
  | .transaction hash reason => s!"transaction {hash}: {reason.message}"
  | .log receipt index reason => s!"log {receipt}#{index.toInt}: {reason.message}"
  | .key receipt index stored derived =>
    s!"log {receipt}#{index.toInt}: stored key {stored} does not match derived key {derived}"
  | .other message => message

/-- Reads a block number, ignoring blanks around it. -/
def readHeight (raw : String) : Except Text.NumberError Nat := Text.readWord (Text.trim raw)

/-- Reads a block number and takes it as the height of the next row. -/
def HeightWalk.observeText (w : HeightWalk) (raw : String)
    (fault : Text.NumberError → UpgradeError) : Except UpgradeError (Nat × HeightWalk) := do
  let height ← (readHeight raw).mapError fault
  let w ← (w.observe height).mapError .continuity
  return (height, w)

/-- The largest height of the new column. -/
def bigintMax : Nat := 0x7FFF_FFFF_FFFF_FFFF

/-- Upgrades a block header, which gains its beneficiary. -/
def OldHeader.upgrade (w : HeightWalk) (r : OldHeader) :
    Except UpgradeError (HeightWalk × NewHeader) := do
  let (height, w) ← w.observeText r.blockNumber (.height r.blockNumber)
  let coinbase ← (Chain.beneficiary r.data).mapError (.header r.blockHash)
  if height ≤ bigintMax then
    return (w, ⟨.ofNat height, r.blockHash, r.parentHash, r.cid, r.mhKey, r.td, r.nodeId, r.reward,
      r.stateRoot, r.uncleRoot, r.txRoot, r.receiptRoot, r.bloom, r.timestamp, r.timesValidated,
      coinbase⟩)
  else .error (.bigint height)

/-- Upgrades an uncle. -/
def OldUncle.upgrade (r : OldUncle) : NewUncle :=
  ⟨r.headerHash, r.blockHash, r.parentHash, r.cid, r.mhKey, r.reward⟩

/-- Upgrades a transaction, which gains its value; an unset type is type zero. -/
def OldTransaction.upgrade (r : OldTransaction) : Except UpgradeError NewTransaction := do
  let value ← (Chain.transactionValue r.data).mapError (.transaction r.txHash)
  return ⟨r.blockHash, r.index, r.txHash, r.cid, r.mhKey, r.dst, r.src, r.txData, r.txType.getD 0,
    toString value⟩

/-- Upgrades an access list element. -/
def OldAccessListElement.upgrade (r : OldAccessListElement) : NewAccessListElement :=
  ⟨r.txHash, r.index, r.address, r.storageKeys⟩

/-- Upgrades a receipt. -/
def OldReceipt.upgrade (r : OldReceipt) : NewReceipt :=
  ⟨r.txHash, r.leafCid, r.leafMhKey, r.postStatus, r.postState, r.contract, r.contractHash,
    r.logRoot⟩

/-- Upgrades a log. -/
def OldLog.upgrade (r : OldLog) : NewLog :=
  ⟨r.txHash, r.leafCid, r.leafMhKey, r.address, r.index, r.logData, r.topic0, r.topic1, r.topic2,
    r.topic3⟩

/-- The log that the columns of a stored log describe. -/
def StoredLog.canonical (r : StoredLog) : Except Chain.CodecError Chain.CanonicalLog :=
  Chain.CanonicalLog.ofColumns r.address [r.topic0, r.topic1, r.topic2, r.topic3]
    (r.logData.getD [])

/-- The missing blob of a stored log, whose key must be the one stored with the log. -/
def StoredLog.blob (r : StoredLog) : Except UpgradeError Blob := do
  let log ← r.canonical.mapError (.log r.rctId r.index)
  let key := Chain.blobKey log.encode
  if key = r.leafMhKey then return ⟨key, log.encode⟩
  else .error (.key r.rctId r.index r.leafMhKey key)

/-- Upgrades a state node. -/
def OldStateNode.upgrade (w : HeightWalk) (r : OldStateNode) :
    Except UpgradeError (HeightWalk × NewStateNode) := do
  let (_, w) ← w.observeText r.blockNumber (.height r.blockNumber)
  return (w, ⟨r.blockHash, r.statePath, r.stateLeafKey, r.nodeType, r.cid, r.mhKey, r.diff⟩)

/-- Upgrades an account. -/
def OldAccount.upgrade (w : HeightWalk) (r : OldAccount) :
    Except UpgradeError (HeightWalk × NewAccount) := do
  let (_, w) ← w.observeText r.blockNumber (.accountHeight r.blockHash r.blockNumber)
  return (w, ⟨r.blockHash, r.statePath, r.balance, r.nonce, r.codeHash, r.storageRoot⟩)

/-- Upgrades a storage node. -/
def OldStorageNode.upgrade (r : OldStorageNode) : NewStorageNode :=
  ⟨r.blockHash, r.statePath, r.storagePath, r.storageLeafKey, r.nodeType, r.cid, r.mhKey, r.diff⟩

/-- Upgrades one row, taking its height where the table promises heights. -/
def OldRow.upgrade (w : HeightWalk) :
    {t : Table} → OldRow t → Except UpgradeError (HeightWalk × NewRow t)
  | .nodes, r => .ok (w, r)
  | .headers, r => OldHeader.upgrade w r
  | .uncles, r => .ok (w, OldUncle.upgrade r)
  | .transactions, r => (OldTransaction.upgrade r).map (w, ·)
  | .accessListElements, r => .ok (w, OldAccessListElement.upgrade r)
  | .receipts, r => .ok (w, OldReceipt.upgrade r)
  | .logs, r => .ok (w, OldLog.upgrade r)
  | .logRepair, r => (StoredLog.blob r).map (w, ·)
  | .state, r => OldStateNode.upgrade w r
  | .accounts, r => OldAccount.upgrade w r
  | .storage, r => .ok (w, OldStorageNode.upgrade r)

/-- Upgrades rows in order, as far as the first row at fault. -/
def upgradeRows {t : Table} (w : HeightWalk) :
    List (OldRow t) → Except UpgradeError (HeightWalk × List (NewRow t))
  | [] => .ok (w, [])
  | row :: rows => do
    let (w, new) ← row.upgrade w
    let (w, news) ← upgradeRows w rows
    return (w, new :: news)

/-- New rows and the runs of heights that no row had. -/
structure Upgraded where
  rows : NewRows
  missing : List BlockRange
deriving DecidableEq

/-- Upgrades the rows read for a range of a table. -/
def Table.upgrade (t : Table) (range : BlockRange) (old : OldRows) :
    Except UpgradeError Upgraded :=
  if old.table = t then do
    let (w, new) ← upgradeRows (.begin range old.table.continuity) old.rows
    return ⟨⟨old.table, new⟩, w.finish⟩
  else .error (.wrongTable t old.table)

end ChainMigration
