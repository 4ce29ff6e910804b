import ChainMigration.Chain.Beneficiary
import ChainMigration.Proofs.AddressText
import ChainMigration.Proofs.ReadItems

/-! # The beneficiary of an encoded header

A beneficiary is read exactly if a list stands in front whose fields begin with two digests and an
address (`beneficiaryBytes_eq_ok_iff`), and it is shown with its checksum. -/

namespace ChainMigration.Chain

open Rlp

variable {raw address : Bytes} {text : String}

/-- **The bytes are a header with a beneficiary**: a list whose payload is two strings of 32 bytes,
the address and anything, and then anything. -/
def HasBeneficiary (raw address : Bytes) : Prop :=
  ∃ parent uncles rest payload junk : Bytes, parent.length = 32 ∧ uncles.length = 32 ∧
    address.length = 20 ∧ payload = 0xa0 :: parent ++ 0xa0 :: uncles ++ 0x94 :: address ++ rest ∧
      payload.length < 256 ^ 8 ∧ raw = item .list payload ++ junk

theorem fixed_eq_ok_iff_mark {bs content rest : Bytes} (count : Nat) (hsome : 2 ≤ count)
    (hshort : count < 56) : fixed count bs = .ok (content, rest) ↔
      content.length = count ∧ bs = .ofNat (0x80 + count) :: content ++ rest := by
  rw [fixed_eq_ok_iff]
  refine and_congr_right fun hlength => ?_
  rw [encodeString_of_length hlength hsome hshort]
  exact and_iff_right (by omega)

theorem beneficiaryBytes_eq_ok_iff :
    beneficiaryBytes raw = .ok address ↔ HasBeneficiary raw address := by
  unfold beneficiaryBytes reading
  simp only [mapError_eq_ok, bind_eq_ok, pure_eq_ok, Prod.exists, payload_eq_ok_iff,
    fixed_eq_ok_iff_mark 32 (by decide) (by decide),
    fixed_eq_ok_iff_mark 20 (by decide) (by decide)]
  constructor
  · rintro ⟨payload, junk, ⟨hfits, hraw⟩, parent, fields, ⟨hparent, hpayload⟩, uncles, fields',
      ⟨huncles, hfields⟩, address, rest, ⟨haddress, hfields'⟩, rfl⟩
    refine ⟨parent, uncles, rest, payload, junk, hparent, huncles, haddress, ?_, hfits, hraw⟩
    rw [hpayload, hfields, hfields']
    simp only [List.append_assoc, List.cons_append]
    rfl
  · rintro ⟨parent, uncles, rest, payload, junk, hparent, huncles, haddress, hpayload, hfits, hraw⟩
    refine ⟨payload, junk, ⟨hfits, hraw⟩, parent, _, ⟨hparent, ?_⟩, uncles, _, ⟨huncles, rfl⟩,
      address, rest, ⟨haddress, rfl⟩, rfl⟩
    rw [hpayload]
    simp only [List.append_assoc, List.cons_append]
    rfl

namespace HasBeneficiary

theorem length (h : HasBeneficiary raw address) : address.length = 20 := by
  obtain ⟨-, -, -, -, -, -, -, hlength, -⟩ := h
  exact hlength

theorem beneficiary (h : HasBeneficiary raw address) :
    beneficiary raw = .ok (checksumText address) := by
  rw [Chain.beneficiary, beneficiaryBytes_eq_ok_iff.mpr h]
  rfl

theorem checksummed (h : HasBeneficiary raw address) :
    Checksummed address (checksumText address) :=
  checksummed_checksumText (by rw [h.length]; decide)

end HasBeneficiary

/-- **A beneficiary is read** exactly if the bytes are a header with it, and shown with its
checksum. -/
theorem beneficiary_eq_ok_iff : beneficiary raw = .ok text ↔
    ∃ address, HasBeneficiary raw address ∧ Checksummed address text := by
  constructor
  · intro h
    obtain ⟨address, hread, htext⟩ := bind_eq_ok.mp h
    have hheader := beneficiaryBytes_eq_ok_iff.mp hread
    refine ⟨address, hheader, ?_⟩
    rw [← pure_eq_ok.mp htext]
    exact hheader.checksummed
  · rintro ⟨address, hheader, htext⟩
    rw [hheader.beneficiary, htext.unique hheader.checksummed]

/-- **The beneficiary of a header is read exactly where it stands.** Bytes give a text exactly if
they are a header with a beneficiary, and the text shows that address with its checksum. Read as the
address column of a log, the text is that address again, and two headers give one text exactly if
they have one beneficiary. -/
theorem beneficiary_text :
    (∀ raw text, beneficiary raw = .ok text ↔
      ∃ address, HasBeneficiary raw address ∧ Checksummed address text) ∧
    (∀ raw text address, HasBeneficiary raw address → beneficiary raw = .ok text →
      ∀ slots data, CanonicalLog.ofColumns text slots data =
        (CanonicalLog.readTopics slots).map (⟨address, ·, data⟩)) ∧
    ∀ raw raw' address address', HasBeneficiary raw address → HasBeneficiary raw' address' →
      (beneficiary raw = beneficiary raw' ↔ address = address') := by
  refine ⟨fun _ _ => beneficiary_eq_ok_iff, fun raw text address h htext slots data => ?_,
    fun raw raw' address address' h h' => ⟨fun hsame => ?_, fun hsame => ?_⟩⟩
  · rw [h.beneficiary, Except.ok.injEq] at htext
    rw [CanonicalLog.ofColumns, ← htext, h.checksummed.readAddress h.length]
    rfl
  · rw [h.beneficiary, h'.beneficiary, Except.ok.injEq] at hsame
    exact h.checksummed.address_unique (hsame ▸ h'.checksummed) h.length h'.length
  · rw [h.beneficiary, h'.beneficiary, hsame]

/-- The address of a miner. -/
def miner : Bytes := [0x5a, 0x0b, 0x54, 0xd5, 0xdc, 0x17, 0xe0, 0xaa, 0xdc, 0x38, 0x3d, 0x2d, 0xb4,
  0x3b, 0x0a, 0x0d, 0x3e, 0x02, 0x9c, 0x4c]

/-- A header of the miner behind some parent, with a byte behind the header. -/
def minedHeader (parent : UInt8) : Bytes :=
  item .list (0xa0 :: .replicate 32 parent ++ 0xa0 :: .replicate 32 2 ++ 0x94 :: miner ++ [0x80]) ++
    [0xff]

theorem hasBeneficiary_minedHeader (parent : UInt8) :
    HasBeneficiary (minedHeader parent) miner :=
  ⟨.replicate 32 parent, .replicate 32 2, [0x80], _, [0xff], List.length_replicate,
    List.length_replicate, rfl, rfl, by simp [miner], rfl⟩

theorem beneficiary_minedHeader :
    HasBeneficiary (minedHeader 1) miner ∧ HasBeneficiary (minedHeader 3) miner ∧
    beneficiary (minedHeader 1) = .ok "0x5A0b54D5dc17e0AadC383d2db43B0a0D3E029c4c" ∧
    CanonicalLog.ofColumns "0x5A0b54D5dc17e0AadC383d2db43B0a0D3E029c4c" [] [] =
      .ok ⟨miner, [], []⟩ ∧
    (beneficiary (minedHeader 1) = beneficiary (minedHeader 3) ↔ miner = miner) := by
  have h := hasBeneficiary_minedHeader
  have htext : beneficiary (minedHeader 1) = .ok "0x5A0b54D5dc17e0AadC383d2db43B0a0D3E029c4c" := by
    rw [(h 1).beneficiary]
    decide +kernel
  exact ⟨h 1, h 3, htext, beneficiary_text.2.1 _ _ _ (h 1) htext [] [],
    beneficiary_text.2.2 _ _ _ _ (h 1) (h 3)⟩

end ChainMigration.Chain
