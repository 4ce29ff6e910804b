import ChainMigration.Table.Name

/-! # Statements

The statement that reads the rows of a table between two heights, and the one that inserts new rows
from one array for each column. -/

namespace ChainMigration.Table

/-- The statement that reads a table; its parameters are the first and the last height. -/
def readQuery : Table → String
  | nodes =>
    "SELECT client_name, genesis_block, network_id, node_id, chain_id::INTEGER AS chain_id
        FROM public.nodes"
  | headers =>
    "SELECT header_cids.block_number::TEXT AS block_number, header_cids.block_hash,
            header_cids.parent_hash, header_cids.cid, header_cids.mh_key, header_cids.td::TEXT AS td,
            header_cids.node_id, header_cids.reward::TEXT AS reward, header_cids.state_root,
            header_cids.uncle_root, header_cids.tx_root, header_cids.receipt_root, header_cids.bloom,
            header_cids.timestamp::BIGINT AS timestamp,
            header_cids.times_validated::BIGINT AS times_validated, blocks.data
        FROM eth.header_cids
        INNER JOIN public.blocks ON (header_cids.mh_key = blocks.key)
        WHERE header_cids.block_number BETWEEN $1 AND $2
        ORDER BY header_cids.block_number"
  | uncles =>
    "SELECT header_cids.block_number::TEXT AS block_number,
            header_cids.block_hash AS header_hash, uncle_cids.block_hash, uncle_cids.parent_hash,
            uncle_cids.cid, uncle_cids.mh_key, uncle_cids.reward::TEXT AS reward
        FROM eth.uncle_cids
        INNER JOIN eth.header_cids ON (uncle_cids.header_id = header_cids.id)
        WHERE header_cids.block_number BETWEEN $1 AND $2
        ORDER BY header_cids.block_number"
  | transactions =>
    "SELECT header_cids.block_number::TEXT AS block_number, header_cids.block_hash,
            transaction_cids.tx_hash, transaction_cids.index::BIGINT AS index, transaction_cids.cid,
            transaction_cids.mh_key, transaction_cids.dst, transaction_cids.src,
            transaction_cids.tx_data, transaction_cids.tx_type::INTEGER AS tx_type, blocks.data
        FROM eth.transaction_cids
        INNER JOIN eth.header_cids ON (transaction_cids.header_id = header_cids.id)
        INNER JOIN public.blocks ON (transaction_cids.mh_key = blocks.key)
        WHERE header_cids.block_number BETWEEN $1 AND $2
        ORDER BY header_cids.block_number, transaction_cids.index"
  | accessListElements =>
    "SELECT header_cids.block_number::TEXT AS block_number, transaction_cids.tx_hash,
            access_list_elements.index::BIGINT AS index, access_list_elements.address,
            access_list_elements.storage_keys::TEXT[] AS storage_keys
        FROM eth.access_list_elements
        INNER JOIN eth.transaction_cids ON (access_list_elements.tx_id = transaction_cids.id)
        INNER JOIN eth.header_cids ON (transaction_cids.header_id = header_cids.id)
        WHERE header_cids.block_number BETWEEN $1 AND $2
        ORDER BY header_cids.block_number"
  | receipts =>
    "SELECT header_cids.block_number::TEXT AS block_number, transaction_cids.tx_hash,
            receipt_cids.leaf_cid, receipt_cids.leaf_mh_key,
            receipt_cids.post_status::BIGINT AS post_status, receipt_cids.post_state,
            receipt_cids.contract, receipt_cids.contract_hash, receipt_cids.log_root
        FROM eth.receipt_cids
        INNER JOIN eth.transaction_cids ON (receipt_cids.tx_id = transaction_cids.id)
        INNER JOIN eth.header_cids ON (transaction_cids.header_id = header_cids.id)
        WHERE header_cids.block_number BETWEEN $1 AND $2
        ORDER BY header_cids.block_number"
  | logs =>
    "SELECT header_cids.block_number::TEXT AS block_number, transaction_cids.tx_hash,
            log_cids.leaf_cid, log_cids.leaf_mh_key, log_cids.address, log_cids.index::BIGINT AS index,
            log_cids.log_data, log_cids.topic0, log_cids.topic1, log_cids.topic2, log_cids.topic3
        FROM eth.log_cids
        INNER JOIN eth.receipt_cids ON (log_cids.receipt_id = receipt_cids.id)
        INNER JOIN eth.transaction_cids ON (receipt_cids.tx_id = transaction_cids.id)
        INNER JOIN eth.header_cids ON (transaction_cids.header_id = header_cids.id)
        WHERE header_cids.block_number BETWEEN $1 AND $2
        ORDER BY header_cids.block_number"
  | logRepair =>
    "SELECT header_cids.block_number::TEXT AS block_number, log_cids.rct_id,
            log_cids.leaf_cid, log_cids.leaf_mh_key, log_cids.address, log_cids.index::BIGINT AS index,
            log_cids.log_data, log_cids.topic0, log_cids.topic1, log_cids.topic2, log_cids.topic3
        FROM eth.log_cids
        INNER JOIN eth.transaction_cids ON (log_cids.rct_id = transaction_cids.tx_hash)
        INNER JOIN eth.header_cids ON (transaction_cids.header_id = header_cids.block_hash)
        LEFT JOIN public.blocks ON (log_cids.leaf_mh_key = blocks.key)
        WHERE blocks.key IS NULL
            AND header_cids.block_number BETWEEN $1 AND $2
        ORDER BY header_cids.block_number"
  | state =>
    "SELECT header_cids.block_number::TEXT AS block_number, header_cids.block_hash,
            state_cids.state_path, state_cids.state_leaf_key, state_cids.node_type::INTEGER AS node_type,
            state_cids.cid, state_cids.mh_key, state_cids.diff
        FROM eth.state_cids
        INNER JOIN eth.header_cids ON (state_cids.header_id = header_cids.id)
        WHERE header_cids.block_number BETWEEN $1 AND $2
        ORDER BY header_cids.block_number"
  | accounts =>
    "SELECT header_cids.block_number::TEXT AS block_number, header_cids.block_hash,
            state_cids.state_path, state_accounts.balance::TEXT AS balance,
            state_accounts.nonce::BIGINT AS nonce, state_accounts.code_hash, state_accounts.storage_root
        FROM eth.state_accounts
        INNER JOIN eth.state_cids ON (state_accounts.state_id = state_cids.id)
        INNER JOIN eth.header_cids ON (state_cids.header_id = header_cids.id)
        WHERE header_cids.block_number BETWEEN $1 AND $2
        ORDER BY header_cids.block_number"
  | storage =>
    "SELECT header_cids.block_number::TEXT AS block_number, header_cids.block_hash,
            state_cids.state_path, storage_cids.storage_path, storage_cids.storage_leaf_key,
            storage_cids.node_type::INTEGER AS node_type, storage_cids.cid, storage_cids.mh_key,
            storage_cids.diff
        FROM eth.storage_cids
        INNER JOIN eth.state_cids ON (storage_cids.state_id = state_cids.id)
        INNER JOIN eth.header_cids ON (state_cids.header_id = header_cids.id)
        WHERE header_cids.block_number BETWEEN $1 AND $2
        ORDER BY header_cids.block_number"

/-- The statement that inserts new rows; its parameters are the columns. -/
def writeQuery : Table → String
  | nodes =>
    "INSERT INTO public.nodes (client_name, genesis_block, network_id, node_id, chain_id)
        SELECT * FROM unnest($1::TEXT[], $2::TEXT[], $3::TEXT[], $4::TEXT[], $5::INTEGER[])
        ON CONFLICT DO NOTHING"
  | headers =>
    "INSERT INTO eth.header_cids (block_number, block_hash, parent_hash, cid, mh_key, td,
            node_id, reward, state_root, uncle_root, tx_root, receipt_root, bloom, timestamp,
            times_validated, coinbase)
        SELECT block_number, block_hash, parent_hash, cid, mh_key, td::NUMERIC, node_id,
            reward::NUMERIC, state_root, uncle_root, tx_root, receipt_root, bloom, timestamp,
            times_validated, coinbase
        FROM unnest($1::BIGINT[], $2::TEXT[], $3::TEXT[], $4::TEXT[], $5::TEXT[], $6::TEXT[],
            $7::TEXT[], $8::TEXT[], $9::TEXT[], $10::TEXT[], $11::TEXT[], $12::TEXT[], $13::BYTEA[],
            $14::BIGINT[], $15::BIGINT[], $16::TEXT[])
            AS t(block_number, block_hash, parent_hash, cid, mh_key, td, node_id, reward, state_root,
                uncle_root, tx_root, receipt_root, bloom, timestamp, times_validated, coinbase)
        ON CONFLICT DO NOTHING"
  | uncles =>
    "INSERT INTO eth.uncle_cids (header_id, block_hash, parent_hash, cid, mh_key, reward)
        SELECT header_id, block_hash, parent_hash, cid, mh_key, reward::NUMERIC
        FROM unnest($1::TEXT[], $2::TEXT[], $3::TEXT[], $4::TEXT[], $5::TEXT[], $6::TEXT[])
            AS t(header_id, block_hash, parent_hash, cid, mh_key, reward)
        ON CONFLICT DO NOTHING"
  | transactions =>
    "INSERT INTO eth.transaction_cids (header_id, index, tx_hash, cid, mh_key, dst, src,
            tx_data, tx_type, value)
        SELECT header_id, index, tx_hash, cid, mh_key, dst, src, tx_data, tx_type, value::NUMERIC
        FROM unnest($1::TEXT[], $2::BIGINT[], $3::TEXT[], $4::TEXT[], $5::TEXT[], $6::TEXT[],
            $7::TEXT[], $8::BYTEA[], $9::INTEGER[], $10::TEXT[])
            AS t(header_id, index, tx_hash, cid, mh_key, dst, src, tx_data, tx_type, value)
        ON CONFLICT DO NOTHING"
  | accessListElements =>
    "INSERT INTO eth.access_list_elements (tx_id, index, address, storage_keys)
        SELECT tx_id, index, address, storage_keys::VARCHAR(66)[]
        FROM unnest($1::TEXT[], $2::BIGINT[], $3::TEXT[], $4::TEXT[])
            AS t(tx_id, index, address, storage_keys)
        ON CONFLICT DO NOTHING"
  | receipts =>
    "INSERT INTO eth.receipt_cids (tx_id, leaf_cid, leaf_mh_key, post_status, post_state,
            contract, contract_hash, log_root)
        SELECT * FROM unnest($1::TEXT[], $2::TEXT[], $3::TEXT[], $4::BIGINT[], $5::TEXT[],
            $6::TEXT[], $7::TEXT[], $8::TEXT[])
        ON CONFLICT DO NOTHING"
  | logs =>
    "INSERT INTO eth.log_cids (rct_id, leaf_cid, leaf_mh_key, address, index, log_data,
            topic0, topic1, topic2, topic3)
        SELECT * FROM unnest($1::TEXT[], $2::TEXT[], $3::TEXT[], $4::TEXT[], $5::BIGINT[], $6::BYTEA[],
            $7::TEXT[], $8::TEXT[], $9::TEXT[], $10::TEXT[])
        ON CONFLICT DO NOTHING"
  | logRepair =>
    "INSERT INTO public.blocks (key, data)
        SELECT * FROM unnest($1::TEXT[], $2::BYTEA[])
        ON CONFLICT (key) DO NOTHING"
  | state =>
    "INSERT INTO eth.state_cids (header_id, state_path, state_leaf_key, node_type, cid,
            mh_key, diff)
        SELECT * FROM unnest($1::TEXT[], $2::BYTEA[], $3::TEXT[], $4::INTEGER[], $5::TEXT[],
            $6::TEXT[], $7::BOOLEAN[])
        ON CONFLICT DO NOTHING"
  | accounts =>
    "INSERT INTO eth.state_accounts (header_id, state_path, balance, nonce, code_hash,
            storage_root)
        SELECT header_id, state_path, balance::NUMERIC, nonce, code_hash, storage_root
        FROM unnest($1::TEXT[], $2::BYTEA[], $3::TEXT[], $4::BIGINT[], $5::BYTEA[], $6::TEXT[])
            AS t(header_id, state_path, balance, nonce, code_hash, storage_root)
        ON CONFLICT DO NOTHING"
  | storage =>
    "INSERT INTO eth.storage_cids (header_id, state_path, storage_path, storage_leaf_key,
            node_type, cid, mh_key, diff)
        SELECT * FROM unnest($1::TEXT[], $2::BYTEA[], $3::BYTEA[], $4::TEXT[], $5::INTEGER[],
            $6::TEXT[], $7::TEXT[], $8::BOOLEAN[])
        ON CONFLICT DO NOTHING"

end ChainMigration.Table
