import ChainMigration.Chain.Address
import ChainMigration.Proofs.CanonicalLogs
import ChainMigration.Proofs.WrittenHex
import Mathlib.Data.List.Zip

/-! # Addresses as text

The text of an address is the one that shows its digits with their checksum: a letter is a capital
exactly if the digest of the lowercase digits has a bit set that belongs to its place
(`checksummed_checksumText`), and no other text does (`Checksummed.unique`). Whatever its checksum,
the address is read back from its text (`Checksummed.readAddress`). -/

namespace ChainMigration

namespace Digest

theorem length_keccak256 (message : Bytes) : (keccak256 message).length = 32 := by
  simp only [keccak256, Keccak.laneBytes, List.length_append, List.length_map, List.length_cons,
    List.length_nil]

end Digest

namespace Chain

variable {address : Bytes} {text : String}

/-! ### Half bytes -/

/-- The bit of a digest that belongs to a place: the highest of the half byte at that place. -/
def placeBit (digest : Bytes) (i : Nat) : Bool :=
  (digest.getD (i / 2) 0).toNat.testBit (if i % 2 = 0 then 7 else 3)

theorem eight_le_div_iff {b : Nat} (h : b < 256) : 8 ≤ b / 16 ↔ b.testBit 7 = true := by
  rw [Nat.testBit_eq_decide_div_mod_eq, decide_eq_true_eq]
  omega

theorem eight_le_mod_iff (b : Nat) : 8 ≤ b % 16 ↔ b.testBit 3 = true := by
  rw [Nat.testBit_eq_decide_div_mod_eq, decide_eq_true_eq]
  omega

theorem length_halves (bs : Bytes) : (halves bs).length = 2 * bs.length := by
  induction bs with
  | nil => rfl
  | cons b bs ih =>
    rw [halves, List.length_cons, List.length_cons, List.length_cons, ih]
    omega

theorem eight_le_getElem_halves_iff : ∀ {bs : Bytes} {i : Nat} (h : i < (halves bs).length),
    8 ≤ (halves bs)[i] ↔ placeBit bs i = true
  | b :: bs, 0, _ => eight_le_div_iff b.toNat_lt
  | b :: bs, 1, _ => eight_le_mod_iff b.toNat
  | b :: bs, i + 2, h => by
    have hplace : placeBit (b :: bs) (i + 2) = placeBit bs i := by
      rw [placeBit, placeBit, show (i + 2) / 2 = i / 2 + 1 by omega,
        show (i + 2) % 2 = i % 2 by omega, List.getD_cons_succ]
    rw [hplace]
    exact eight_le_getElem_halves_iff (Nat.lt_of_add_lt_add_right (n := 2) h)

theorem lt_of_mem_halves {bs : Bytes} {half : Nat} (h : half ∈ halves bs) : half < 16 := by
  induction bs with
  | nil => cases h
  | cons b bs ih =>
    have hb := b.toNat_lt
    rw [halves, List.mem_cons, List.mem_cons] at h
    obtain rfl | rfl | h := h
    · omega
    · omega
    · exact ih h

/-! ### Checksums -/

/-- The digest that decides about the case of the digits of an address: that of the lowercase
digits. -/
def checksumDigest (address : Bytes) : Bytes :=
  Digest.keccak256 ((Text.hexDigits address).map fun c => c.toNat.toUInt8)

/-- **The text shows an address with its checksum**: behind the mark 0x stand the digits of the
address, and those of them that are capitals are the letters at whose places the digest has its bit
set. -/
def Checksummed (address : Bytes) (text : String) : Prop :=
  ∃ cs : List Char, text.toList = '0' :: 'x' :: cs ∧ cs.map Char.toLower = Text.hexDigits address ∧
    ∀ (i : Nat) (h : i < cs.length), cs[i].isUpper = true ↔
      cs[i].isAlpha = true ∧ placeBit (checksumDigest address) i = true

/-- A digit with its half byte is the same digit, and a capital if it is a letter and the half byte
is high. -/
theorem checksumDigit_hexDigit : ∀ n < 16, ∀ half < 16,
    (checksumDigit (Text.hexDigit n) half).toLower = Text.hexDigit n ∧
      ((checksumDigit (Text.hexDigit n) half).isUpper = true ↔
        (checksumDigit (Text.hexDigit n) half).isAlpha = true ∧ 8 ≤ half) := by
  decide

theorem isUpper_iff {c : Char} : c.isUpper = true ↔ 65 ≤ c.toNat ∧ c.toNat ≤ 90 := by
  have hrange : c.isUpper = decide (65 ≤ c.toNat ∧ c.toNat ≤ 90) := rfl
  rw [hrange, decide_eq_true_eq]

theorem isLower_iff {c : Char} : c.isLower = true ↔ 97 ≤ c.toNat ∧ c.toNat ≤ 122 := by
  have hrange : c.isLower = (decide (97 ≤ c.toNat) && decide (c.toNat ≤ 122)) := rfl
  rw [hrange, Bool.and_eq_true, decide_eq_true_eq, decide_eq_true_eq]

theorem eq_of_toLower_eq {c d : Char} (h : c.toLower = d.toLower)
    (hupper : c.isUpper = true ↔ d.isUpper = true) : c = d := by
  rw [isUpper_iff, isUpper_iff] at hupper
  rw [← Char.toNat_inj, Text.toNat_toLower, Text.toNat_toLower] at h
  rw [← Char.toNat_inj]
  grind

theorem isAlpha_eq_of_toLower_eq {c d : Char} (h : c.toLower = d.toLower) :
    c.isAlpha = d.isAlpha := by
  have hletter (c : Char) : c.isAlpha = true ↔
      (65 ≤ c.toNat ∧ c.toNat ≤ 90) ∨ (97 ≤ c.toNat ∧ c.toNat ≤ 122) := by
    have hcase : c.isAlpha = (c.isUpper || c.isLower) := rfl
    rw [hcase, Bool.or_eq_true, isUpper_iff, isLower_iff]
  rw [← Char.toNat_inj, Text.toNat_toLower, Text.toNat_toLower] at h
  rw [Bool.eq_iff_iff, hletter, hletter]
  grind

/-- **The text of an address shows its checksum.** -/
theorem checksummed_checksumText (h : address.length ≤ 32) :
    Checksummed address (checksumText address) := by
  have hlength : (Text.hexDigits address).length ≤ (halves (checksumDigest address)).length := by
    rw [Text.length_hexDigits, length_halves, checksumDigest, Digest.length_keccak256]
    omega
  -- Each digit with its half byte.
  have hdigit {i : Nat} (hi : i < (Text.hexDigits address).length)
      (hi' : i < (halves (checksumDigest address)).length) :
      (checksumDigit (Text.hexDigits address)[i] (halves (checksumDigest address))[i]).toLower =
        (Text.hexDigits address)[i] ∧
      ((checksumDigit (Text.hexDigits address)[i] (halves (checksumDigest address))[i]).isUpper =
          true ↔
        (checksumDigit (Text.hexDigits address)[i] (halves (checksumDigest address))[i]).isAlpha =
          true ∧ placeBit (checksumDigest address) i = true) := by
    obtain ⟨n, hn, hc⟩ := Text.mem_hexDigits (List.getElem_mem hi)
    rw [← eight_le_getElem_halves_iff hi', hc]
    exact checksumDigit_hexDigit n hn _ (lt_of_mem_halves (List.getElem_mem hi'))
  refine ⟨List.zipWith checksumDigit (Text.hexDigits address) (halves (checksumDigest address)),
    String.toList_ofList, List.ext_getElem ?_ fun i hi hi' => ?_, fun i hi => ?_⟩
  · rw [List.length_map, List.length_zipWith, Nat.min_eq_left hlength]
  · rw [List.getElem_map, List.getElem_zipWith]
    exact (hdigit hi' (Nat.lt_of_lt_of_le hi' hlength)).1
  · rw [List.length_zipWith, Nat.lt_min] at hi
    rw [List.getElem_zipWith]
    exact (hdigit hi.1 hi.2).2

/-- **There is one text that shows an address with its checksum.** -/
theorem Checksummed.unique {text' : String} (h : Checksummed address text)
    (h' : Checksummed address text') : text = text' := by
  obtain ⟨cs, htext, hlower, hcase⟩ := h
  obtain ⟨cs', htext', hlower', hcase'⟩ := h'
  have hsame : cs.map Char.toLower = cs'.map Char.toLower := hlower.trans hlower'.symm
  have hlength : cs.length = cs'.length := by
    rw [← List.length_map (f := Char.toLower), hsame, List.length_map]
  have hcs : cs = cs' := by
    refine List.ext_getElem hlength fun i hi hi' => ?_
    have hdigit : cs[i].toLower = cs'[i].toLower := by
      rw [← List.getElem_map (f := Char.toLower) (h := by rwa [List.length_map]),
        ← List.getElem_map (f := Char.toLower) (h := by rwa [List.length_map])]
      simp only [hsame]
    refine eq_of_toLower_eq hdigit ?_
    rw [hcase i hi, hcase' i hi', isAlpha_eq_of_toLower_eq hdigit]
  rw [← String.toList_inj, htext, htext', hcs]

/-- **An address is read back from its text**, whatever the checksum. -/
theorem Checksummed.readAddress (h : Checksummed address text) (hlength : address.length = 20) :
    CanonicalLog.readAddress text = .ok address := by
  obtain ⟨cs, htext, hlower, -⟩ := h
  have hspells : Text.SpellsHex text.toList address := by
    rw [htext, Text.spellsHex_mark rfl, hlower]
  rw [CanonicalLog.readAddress_eq_ok, Text.trimmed_of_forall_not_blank
    (Text.not_blank_of_spellsHex hspells)]
  exact ⟨hlength, hspells⟩

theorem Checksummed.address_unique {address' : Bytes} (h : Checksummed address text)
    (h' : Checksummed address' text) (hlength : address.length = 20)
    (hlength' : address'.length = 20) : address = address' := by
  have hread := h.readAddress hlength
  rw [h'.readAddress hlength'] at hread
  exact (Except.ok.inj hread).symm

end Chain

end ChainMigration
