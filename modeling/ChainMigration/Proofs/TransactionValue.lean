import ChainMigration.Chain.TransactionValue
import ChainMigration.Proofs.Decimal
import ChainMigration.Proofs.ReadItems

/-! # The value of an encoded transaction

An amount is read exactly if the bytes are a transaction up to its amount: the mark of a kind of
transaction, a list, and in it as many items as that kind has before its amount and then the amount
(`transactionValue_eq_ok_iff`). Every kind of transaction is encoded that way
(`Transaction.transfers_encode`), and bytes behind the list are never read
(`transactionValue_append`). -/

namespace ChainMigration.Chain

open Rlp

variable {type payload junk raw : Bytes} {skip value : Nat}

/-! ### Reading -/

/-- **The mark in front of the list** of an encoded transaction, with the number of the fields that
stand before its amount. -/
inductive Envelope : Bytes → Nat → Prop
  | untyped : Envelope [] 4
  | accessList : Envelope [1] 5
  | dynamicFee : Envelope [2] 6
  | blob : Envelope [3] 6

/-- **The fields of a list hold an amount** behind so many items of any kind and content. -/
def HoldsAmount (skip : Nat) (payload : Bytes) (value : Nat) : Prop :=
  ∃ (fields : List Bytes) (rest : Bytes), fields.length = skip ∧ (∀ field ∈ fields, IsItem field) ∧
    value < 2 ^ 256 ∧ payload = fields.flatten ++ encodeString (bigEndian value) ++ rest

/-- **The bytes transfer an amount**: a mark, a list that holds the amount, and anything. -/
def Transfers (raw : Bytes) (value : Nat) : Prop :=
  ∃ type skip payload junk, Envelope type skip ∧ payload.length < 256 ^ 8 ∧
    raw = type ++ item .list payload ++ junk ∧ HoldsAmount skip payload value

theorem exists_item_list_eq_cons (h : payload.length < 256 ^ 8) :
    ∃ b bs, item .list payload = b :: bs ∧ 0xc0 ≤ b := by
  rw [item_list, lengthHeader]
  have hcount := length_bigEndian_le_iff.mpr h
  split
  · next hshort =>
    refine ⟨_, _, rfl, ?_⟩
    rw [UInt8.le_iff_toNat_le, UInt8.toNat_ofNat_of_lt' (by rw [UInt8.size]; omega)]
    exact Nat.le_add_right _ _
  · refine ⟨_, _, rfl, ?_⟩
    rw [UInt8.le_iff_toNat_le, UInt8.toNat_ofNat_of_lt' (by rw [UInt8.size]; omega)]
    exact (Nat.le_add_right _ _).trans (Nat.le_add_right _ _)

theorem transactionValue_envelope (h : Envelope type skip) (hfits : payload.length < 256 ^ 8) :
    transactionValue (type ++ item .list payload ++ junk) =
      numberAfter skip (item .list payload ++ junk) := by
  obtain ⟨b, bs, hlist, hb⟩ := exists_item_list_eq_cons hfits
  rw [List.append_assoc, hlist]
  cases h with
  | untyped => exact if_pos hb
  | accessList => rfl
  | dynamicFee => rfl
  | blob => rfl

theorem exists_envelope_of_transactionValue_eq_ok (h : transactionValue raw = .ok value) :
    ∃ type skip list, Envelope type skip ∧ raw = type ++ list ∧
      numberAfter skip list = .ok value := by
  cases raw with
  | nil => cases h
  | cons first rest =>
    rw [transactionValue] at h
    split at h
    · exact ⟨[], 4, first :: rest, .untyped, rfl, h⟩
    · unfold fieldsBeforeValue at h
      by_cases hone : first = 1
      · subst hone
        exact ⟨[1], 5, rest, .accessList, rfl, h⟩
      · by_cases htwo : first = 2
        · subst htwo
          exact ⟨[2], 6, rest, .dynamicFee, rfl, h⟩
        · by_cases hthree : first = 3
          · subst hthree
            exact ⟨[3], 6, rest, .blob, rfl, h⟩
          · rw [if_neg hone, if_neg (not_or.mpr ⟨htwo, hthree⟩)] at h
            cases h

theorem numberAfter_eq_ok_iff : numberAfter skip raw = .ok value ↔
    ∃ payload junk, payload.length < 256 ^ 8 ∧ raw = item .list payload ++ junk ∧
      HoldsAmount skip payload value := by
  unfold numberAfter reading
  simp only [mapError_eq_ok, bind_eq_ok, pure_eq_ok, Prod.exists, payload_eq_ok_iff,
    skipItems_eq_ok_iff, number_eq_ok_iff]
  constructor
  · rintro ⟨payload, junk, ⟨hfits, hraw⟩, tail, ⟨fields, hcount, hitems, hpayload⟩, value, rest,
      ⟨hvalue, htail⟩, rfl⟩
    refine ⟨payload, junk, hfits, hraw, fields, rest, hcount, hitems, hvalue, ?_⟩
    rw [hpayload, htail, List.append_assoc]
  · rintro ⟨payload, junk, hfits, hraw, fields, rest, hcount, hitems, hvalue, hpayload⟩
    rw [List.append_assoc] at hpayload
    exact ⟨payload, junk, ⟨hfits, hraw⟩, _, ⟨fields, hcount, hitems, hpayload⟩, value, rest,
      ⟨hvalue, rfl⟩, rfl⟩

/-- **An amount is read** exactly if the bytes transfer it. -/
theorem transactionValue_eq_ok_iff : transactionValue raw = .ok value ↔ Transfers raw value := by
  constructor
  · intro h
    obtain ⟨type, skip, list, hmark, rfl, hnumber⟩ := exists_envelope_of_transactionValue_eq_ok h
    obtain ⟨payload, junk, hfits, rfl, hholds⟩ := numberAfter_eq_ok_iff.mp hnumber
    exact ⟨type, skip, payload, junk, hmark, hfits, (List.append_assoc _ _ _).symm, hholds⟩
  · rintro ⟨type, skip, payload, junk, hmark, hfits, rfl, hholds⟩
    rw [transactionValue_envelope hmark hfits]
    exact numberAfter_eq_ok_iff.mpr ⟨payload, junk, hfits, rfl, hholds⟩

/-- **Nothing behind the list is read**, whether an amount is found or not. -/
theorem transactionValue_append (h : Envelope type skip) (hfits : payload.length < 256 ^ 8) :
    transactionValue (type ++ item .list payload ++ junk) =
      transactionValue (type ++ item .list payload) := by
  have hlist (tail : Bytes) : transactionValue (type ++ item .list payload ++ tail) =
      reading (do return (← number (← skipItems skip payload)).1) := by
    rw [transactionValue_envelope h hfits, numberAfter, payload_item hfits]
    rfl
  have hnone := hlist []
  rw [List.append_nil] at hnone
  rw [hlist, hnone]

theorem transactionValue_cons_of_lt {first : UInt8} (hlow : first < 0xc0)
    (hmark : first ∉ [1, 2, 3]) (rest : Bytes) :
    transactionValue (first :: rest) = .error (.transactionType first) := by
  have hnone : fieldsBeforeValue first = none := by
    simp only [List.mem_cons, List.not_mem_nil, or_false, not_or] at hmark
    rw [fieldsBeforeValue, if_neg hmark.1, if_neg (not_or.mpr hmark.2)]
  rw [transactionValue, if_neg (UInt8.not_le.mpr hlow), hnone]

/-! ### Encoded transactions -/

/-- A number as an item. -/
def encodeNumber (n : Nat) : Bytes := encodeString (bigEndian n)

/-- An account and those of its slots that a transaction announces. -/
structure Access where
  address : Bytes
  slots : List Bytes

/-- The announcements of a transaction as an item. -/
def encodeAccesses (accesses : List Access) : Bytes :=
  encodeList (accesses.map fun access =>
    encodeList [encodeString access.address, encodeList (access.slots.map encodeString)])

/-- The kind of a transaction, with the fields that only this kind has. -/
inductive TransactionKind
  | legacy (gasPrice : Nat)
  | accessList (chain gasPrice : Nat) (accesses : List Access)
  | dynamicFee (chain priorityFee maxFee : Nat) (accesses : List Access)
  | blob (chain priorityFee maxFee : Nat) (accesses : List Access) (blobFee : Nat)
    (blobHashes : List Bytes)

/-- A transaction: its kind, what all kinds have, and its signature. -/
structure Transaction where
  kind : TransactionKind
  nonce : Nat
  gas : Nat
  recipient : Bytes
  value : Nat
  data : Bytes
  parity : Nat
  r : Nat
  s : Nat

namespace Transaction

variable (tx : Transaction)

/-- The mark in front of the encoded transaction. -/
def mark : Bytes :=
  match tx.kind with
  | .legacy .. => []
  | .accessList .. => [1]
  | .dynamicFee .. => [2]
  | .blob .. => [3]

/-- The contents of the fields before the amount, all of them strings. -/
def stringsBefore : List Bytes :=
  match tx.kind with
  | .legacy gasPrice => [bigEndian tx.nonce, bigEndian gasPrice, bigEndian tx.gas, tx.recipient]
  | .accessList chain gasPrice _ =>
    [bigEndian chain, bigEndian tx.nonce, bigEndian gasPrice, bigEndian tx.gas, tx.recipient]
  | .dynamicFee chain priorityFee maxFee _ | .blob chain priorityFee maxFee _ _ _ =>
    [bigEndian chain, bigEndian tx.nonce, bigEndian priorityFee, bigEndian maxFee,
      bigEndian tx.gas, tx.recipient]

/-- The fields between the data and the signature, as items. -/
def fieldsAfter : List Bytes :=
  match tx.kind with
  | .legacy _ => []
  | .accessList _ _ accesses | .dynamicFee _ _ _ accesses => [encodeAccesses accesses]
  | .blob _ _ _ accesses blobFee blobHashes =>
    [encodeAccesses accesses, encodeNumber blobFee, encodeList (blobHashes.map encodeString)]

/-- All fields, as items. -/
def fields : List Bytes :=
  tx.stringsBefore.map encodeString ++ [encodeNumber tx.value, encodeString tx.data] ++
    tx.fieldsAfter ++ [encodeNumber tx.parity, encodeNumber tx.r, encodeNumber tx.s]

/-- The encoded transaction. -/
def encode : Bytes := tx.mark ++ encodeList tx.fields

theorem envelope : Envelope tx.mark tx.stringsBefore.length := by
  unfold mark stringsBefore
  cases tx.kind with
  | legacy => exact .untyped
  | accessList => exact .accessList
  | dynamicFee => exact .dynamicFee
  | blob => exact .blob

/-- **An encoded transaction transfers its amount**, whatever stands behind it. -/
theorem transfers_encode (hvalue : tx.value < 2 ^ 256) (hfits : tx.fields.flatten.length < 256 ^ 8)
    (junk : Bytes) : Transfers (tx.encode ++ junk) tx.value := by
  refine ⟨tx.mark, _, tx.fields.flatten, junk, tx.envelope, hfits, ?_,
    tx.stringsBefore.map encodeString, (encodeString tx.data :: tx.fieldsAfter ++
      [encodeNumber tx.parity, encodeNumber tx.r, encodeNumber tx.s]).flatten,
    List.length_map _, fun field hfield => ?_, hvalue, ?_⟩
  · rw [encode, encodeList_eq_item]
  · obtain ⟨content, -, rfl⟩ := List.mem_map.mp hfield
    have hmem : encodeString content ∈ tx.fields := by
      rw [fields, List.append_assoc, List.append_assoc]
      exact List.mem_append_left _ hfield
    exact isItem_encodeString
      (Nat.lt_of_le_of_lt (List.sublist_flatten_of_mem hmem).length_le hfits)
  · simp [fields, encodeNumber]

end Transaction

/-! ### The amount as text -/

/-- **The amount of a transaction is read exactly where it stands.** Bytes give a text exactly if
they transfer an amount, and the text is the decimal text of that amount. All four kinds of
transactions give the amount that they were encoded with. What stands behind the list changes
nothing, and bytes with another mark in front, or none, are refused. -/
theorem transactionValue_text :
    (∀ raw text, (transactionValue raw).map toString = .ok text ↔
      ∃ value, Transfers raw value ∧ Text.IsDecimal text value) ∧
    (∀ (tx : Transaction) (junk : Bytes), tx.value < 2 ^ 256 →
      tx.fields.flatten.length < 256 ^ 8 →
        (transactionValue (tx.encode ++ junk)).map toString = .ok (toString tx.value)) ∧
    (∀ type skip payload junk, Envelope type skip → payload.length < 256 ^ 8 →
      transactionValue (type ++ item .list payload ++ junk) =
        transactionValue (type ++ item .list payload)) ∧
    transactionValue [] = .error .empty ∧
    ∀ first rest, first < 0xc0 → first ∉ [1, 2, 3] →
      transactionValue (first :: rest) = .error (.transactionType first) := by
  refine ⟨fun raw text => ?_, fun tx junk hvalue hfits => ?_, fun _ _ _ _ hmark hfits => ?_, rfl,
    fun first rest hlow hmark => transactionValue_cons_of_lt hlow hmark rest⟩
  · simp only [map_eq_ok, transactionValue_eq_ok_iff, Text.isDecimal_iff, eq_comm (a := text)]
  · rw [transactionValue_eq_ok_iff.mpr (tx.transfers_encode hvalue hfits junk)]
    rfl
  · exact transactionValue_append hmark hfits

/-- A transaction that creates a contract: it has no recipient. -/
def creation : Transaction where
  kind := .dynamicFee 1 2 3 [⟨.replicate 20 0x5a, [.replicate 32 1]⟩]
  nonce := 0
  gas := 21000
  recipient := []
  value := 1000000007
  data := [0x60, 0x80]
  parity := 1
  r := 2
  s := 3

theorem transactionValue_creation : creation.value < 2 ^ 256 ∧
    creation.fields.flatten.length < 256 ^ 8 ∧ Envelope [2] 6 ∧ (0x7f : UInt8) < 0xc0 ∧
    (0x7f : UInt8) ∉ [1, 2, 3] ∧
    (transactionValue (creation.encode ++ [0xff])).map toString = .ok "1000000007" ∧
    transactionValue ([2] ++ item .list creation.fields.flatten ++ [0xff]) =
      transactionValue ([2] ++ item .list creation.fields.flatten) ∧
    transactionValue [0x7f, 0xc0] = .error (.transactionType 0x7f) := by
  have hfits : creation.fields.flatten.length < 256 ^ 8 := by decide +kernel
  exact ⟨by decide, hfits, .dynamicFee, by decide, by decide,
    transactionValue_text.2.1 creation [0xff] (by decide) hfits,
    transactionValue_text.2.2.1 [2] 6 _ [0xff] .dynamicFee hfits,
    transactionValue_text.2.2.2.2 0x7f [0xc0] (by decide) (by decide)⟩

end ChainMigration.Chain
