import ChainMigration.Proofs.AddressText
import Mathlib.Data.List.Induction

/-! # Keys of blobs

Base 32 text is read as the bytes that it is written for, and of all texts only this one is
(`Text.readBase32?_eq_some_iff`). As a number in base 32 it is the number of its bytes in front of
the zeros that fill up its last character (`Text.number32?_base32Digits`).

So the key of a blob is the digest of the blob in 55 characters, nothing more and nothing less
(`Chain.blobKey_faithful`). -/

namespace ChainMigration

namespace Text

variable {bs : Bytes} {cs : List Char} {values : List Nat}

/-! ### Numbers -/

theorem ofBits_append (bits more : List Bool) :
    ofBits (bits ++ more) = 2 ^ more.length * ofBits bits + ofBits more := by
  induction bits with
  | nil => rw [List.nil_append, show ofBits [] = 0 from rfl, Nat.mul_zero, Nat.zero_add]
  | cons b bits ih =>
    rw [List.cons_append, ofBits_cons, ofBits_cons, ih, List.length_append, Nat.pow_add]
    ring

theorem ofBits_replicate_false (k : Nat) : ofBits (.replicate k false) = 0 := by
  induction k with
  | zero => rfl
  | succ k ih => rw [List.replicate_succ, ofBits_cons, ih, Bool.toNat_false, Nat.mul_zero]

theorem ofBits_flatMap_bitsOf {width : Nat} (h : ∀ v ∈ values, v < 2 ^ width) :
    ofBits (values.flatMap (bitsOf width)) = values.foldl (fun n v => 2 ^ width * n + v) 0 := by
  induction values using List.reverseRecOn with
  | nil => rfl
  | append_singleton values v ih =>
    rw [List.forall_mem_append, List.forall_mem_singleton] at h
    rw [List.flatMap_append, List.flatMap_singleton, ofBits_append, length_bitsOf, ofBits_bitsOf,
      Nat.mod_eq_of_lt h.2, ih h.1, List.foldl_append]
    rfl

theorem ofBits_bitsOfBytes (bs : Bytes) : ofBits (bitsOfBytes bs) = Rlp.ofBigEndian bs := by
  have hbyte : ∀ v ∈ bs.map (·.toNat), v < 2 ^ 8 := by
    intro v hv
    obtain ⟨b, -, rfl⟩ := List.mem_map.mp hv
    exact b.toNat_lt
  have h := ofBits_flatMap_bitsOf hbyte
  rw [List.flatMap_map, List.foldl_map] at h
  exact h

/-! ### The characters of bytes -/

/-- The numbers of the characters that bytes are written in. -/
def base32Values (bs : Bytes) : List Nat :=
  (bitGroups 4 (bitsOfBytes bs)).map fun group => ofBits (filled 4 group)

theorem base32Digits_eq (bs : Bytes) : base32Digits bs = (base32Values bs).map base32Digit := by
  rw [base32Values, List.map_map]
  rfl

theorem length_of_mem_filled {bits group : List Bool}
    (h : group ∈ (bitGroups 4 bits).map (filled 4)) : group.length = 5 := by
  obtain ⟨part, hpart, rfl⟩ := List.mem_map.mp h
  exact length_filled (length_le_of_mem_bitGroups hpart)

theorem base32Values_lt {v : Nat} (h : v ∈ base32Values bs) : v < 2 ^ 5 := by
  obtain ⟨group, hgroup, rfl⟩ := List.mem_map.mp h
  have hlt := ofBits_lt (filled 4 group)
  rwa [length_of_mem_filled (List.mem_map_of_mem hgroup)] at hlt

/-- The characters of bytes have their bits in front of fewer than five zeros. -/
theorem exists_flatMap_base32Values (bs : Bytes) : ∃ k < 5,
    (base32Values bs).flatMap (bitsOf 5) = bitsOfBytes bs ++ .replicate k false := by
  obtain ⟨k, hk, hfilled⟩ := exists_flatMap_filled 4 (bitsOfBytes bs)
  refine ⟨k, hk, ?_⟩
  rw [← hfilled, base32Values, List.flatMap_map]
  refine List.flatMap_congr fun group hgroup => ?_
  have hback := bitsOf_ofBits (filled 4 group)
  rwa [length_of_mem_filled (List.mem_map_of_mem hgroup)] at hback

theorem length_flatMap_bitsOf (width : Nat) (values : List Nat) :
    (values.flatMap (bitsOf width)).length = width * values.length := by
  induction values with
  | nil => rfl
  | cons v values ih =>
    rw [List.flatMap_cons, List.length_append, length_bitsOf, ih, List.length_cons, Nat.mul_succ,
      Nat.add_comm]

/-- **Every five bits have a character**, and so have the bits that are left. -/
theorem length_base32Digits (bs : Bytes) : (base32Digits bs).length = (8 * bs.length + 4) / 5 := by
  obtain ⟨k, hk, hbits⟩ := exists_flatMap_base32Values bs
  have hlength := congrArg List.length hbits
  rw [length_flatMap_bitsOf, List.length_append, length_bitsOfBytes, List.length_replicate]
    at hlength
  rw [base32Digits_eq, List.length_map]
  omega

/-- The character stands for five bits. -/
def InAlphabet (c : Char) : Prop := 'A' ≤ c ∧ c ≤ 'Z' ∨ '2' ≤ c ∧ c ≤ '7'

instance : DecidablePred InAlphabet := fun c =>
  inferInstanceAs (Decidable ('A' ≤ c ∧ c ≤ 'Z' ∨ '2' ≤ c ∧ c ≤ '7'))

theorem inAlphabet_base32Digit : ∀ n < 2 ^ 5, InAlphabet (base32Digit n) := by decide

theorem inAlphabet_of_mem {c : Char} (h : c ∈ base32Digits bs) : InAlphabet c := by
  rw [base32Digits_eq] at h
  obtain ⟨v, hv, rfl⟩ := List.mem_map.mp h
  exact inAlphabet_base32Digit v (base32Values_lt hv)

/-- The number that characters of the alphabet write in base 32, highest first. -/
def number32? (cs : List Char) : Option Nat :=
  (cs.mapM base32Value?).map fun values => values.foldl (fun n v => 32 * n + v) 0

/-- **The characters of bytes write the number of the bytes** in front of fewer than five zeros. -/
theorem number32?_base32Digits (bs : Bytes) : ∃ k < 5,
    5 * (base32Digits bs).length = 8 * bs.length + k ∧
      number32? (base32Digits bs) = some (2 ^ k * Rlp.ofBigEndian bs) := by
  obtain ⟨k, hk, hbits⟩ := exists_flatMap_base32Values bs
  have hlength := congrArg List.length hbits
  have hnumber := congrArg ofBits hbits
  rw [length_flatMap_bitsOf, List.length_append, length_bitsOfBytes, List.length_replicate]
    at hlength
  rw [ofBits_flatMap_bitsOf fun v => base32Values_lt, ofBits_append, ofBits_bitsOfBytes,
    ofBits_replicate_false, List.length_replicate, Nat.add_zero] at hnumber
  refine ⟨k, hk, ?_, ?_⟩
  · rw [base32Digits_eq, List.length_map, hlength]
  · rw [base32Digits_eq, number32?, mapM_base32Value? fun v => base32Values_lt, Option.map_some,
      ← hnumber]
    rfl

/-! ### Reading -/

theorem le_iff_toNat_le {c d : Char} : c ≤ d ↔ c.toNat ≤ d.toNat := UInt32.le_iff_toNat_le

theorem eq_of_base32Value? {c : Char} {n : Nat} (h : base32Value? c = some n) :
    n < 2 ^ 5 ∧ base32Digit n = c := by
  rw [base32Value?] at h
  simp only [le_iff_toNat_le, Char.reduceToNat] at h
  split at h
  · next hletter =>
    cases h
    have hback : c.toNat - 65 + 65 = c.toNat := Nat.sub_add_cancel hletter.1
    refine ⟨by omega, ?_⟩
    rw [base32Digit, if_pos (by omega), show 'A'.toNat = 65 from rfl, hback, Char.ofNat_toNat]
  · split at h
    · next hdigit =>
      cases h
      have hback : c.toNat - 50 + 26 - 26 + 50 = c.toNat := by omega
      refine ⟨by omega, ?_⟩
      rw [base32Digit, if_neg (by omega), show '2'.toNat = 50 from rfl, hback, Char.ofNat_toNat]
    · cases h

theorem eq_of_mapM_base32Value? : ∀ {cs : List Char} {values : List Nat},
    cs.mapM base32Value? = some values → (∀ v ∈ values, v < 2 ^ 5) ∧ values.map base32Digit = cs
  | [], values, h => by
    cases h
    exact ⟨List.forall_mem_nil _, rfl⟩
  | c :: cs, values, h => by
    rw [List.mapM_cons] at h
    obtain ⟨v, hv, h⟩ := Option.bind_eq_some_iff.mp h
    obtain ⟨rest, hrest, h⟩ := Option.bind_eq_some_iff.mp h
    cases h
    obtain ⟨hlt, hc⟩ := eq_of_base32Value? hv
    obtain ⟨hlts, hcs⟩ := eq_of_mapM_base32Value? hrest
    exact ⟨List.forall_mem_cons.mpr ⟨hlt, hlts⟩, by rw [List.map_cons, hc, hcs]⟩

theorem exists_bitsOfBytes_eq : ∀ {n : Nat} {bits : List Bool}, bits.length = 8 * n →
    ∃ bs, bitsOfBytes bs = bits
  | 0, bits, h => ⟨[], (List.eq_nil_of_length_eq_zero h).symm⟩
  | n + 1, bits, h => by
    have hdrop : (bits.drop 8).length = 8 * n := by
      rw [List.length_drop]
      omega
    have htake : (bits.take 8).length = 8 := by
      rw [List.length_take]
      omega
    obtain ⟨bs, hbs⟩ := exists_bitsOfBytes_eq hdrop
    have hlt := ofBits_lt (bits.take 8)
    have hback := bitsOf_ofBits (bits.take 8)
    rw [htake] at hlt hback
    refine ⟨.ofNat (ofBits (bits.take 8)) :: bs, ?_⟩
    rw [bitsOfBytes, List.flatMap_cons, UInt8.toNat_ofNat_of_lt' hlt, hback, ← bitsOfBytes, hbs,
      List.take_append_drop]

theorem eq_of_flatMap_bitsOf : ∀ {values others : List Nat}, (∀ v ∈ values, v < 2 ^ 5) →
    (∀ v ∈ others, v < 2 ^ 5) → values.flatMap (bitsOf 5) = others.flatMap (bitsOf 5) →
    values = others
  | [], [], _, _, _ => rfl
  | [], _ :: _, _, _, h | _ :: _, [], _, _, h => by cases h
  | v :: values, u :: others, hvalues, hothers, h => by
    rw [List.forall_mem_cons] at hvalues hothers
    rw [List.flatMap_cons, List.flatMap_cons] at h
    obtain ⟨hbits, hrest⟩ := List.append_inj h (by rw [length_bitsOf, length_bitsOf])
    have hnumber := congrArg ofBits hbits
    rw [ofBits_bitsOf, ofBits_bitsOf, Nat.mod_eq_of_lt hvalues.1, Nat.mod_eq_of_lt hothers.1]
      at hnumber
    rw [hnumber, eq_of_flatMap_bitsOf hvalues.2 hothers.2 hrest]

theorem eq_base32Values {k : Nat} (hvalues : ∀ v ∈ values, v < 2 ^ 5) (hk : k < 5)
    (hbits : values.flatMap (bitsOf 5) = bitsOfBytes bs ++ .replicate k false) :
    values = base32Values bs := by
  obtain ⟨k', hk', hbits'⟩ := exists_flatMap_base32Values bs
  have hzeros : k = k' := by
    have hlength := congrArg List.length hbits
    have hlength' := congrArg List.length hbits'
    rw [length_flatMap_bitsOf, List.length_append, List.length_replicate] at hlength hlength'
    omega
  subst hzeros
  exact eq_of_flatMap_bitsOf hvalues (fun v => base32Values_lt) (hbits.trans hbits'.symm)

/-- **A text is read as bytes** exactly if it is the one that the bytes are written in. -/
theorem readBase32?_eq_some_iff : readBase32? cs = some bs ↔ cs = base32Digits bs := by
  constructor
  · intro h
    rw [readBase32?] at h
    obtain ⟨values, hvalues, h⟩ := Option.bind_eq_some_iff.mp h
    obtain ⟨hlt, rfl⟩ := eq_of_mapM_base32Value? hvalues
    dsimp only at h
    set bits := values.flatMap (bitsOf 5)
    obtain ⟨⟨hshort, hzeros⟩, hbytes⟩ := Option.ite_none_right_eq_some.mp h
    have hlength : (bits.take (bits.length / 8 * 8)).length = 8 * (bits.length / 8) := by
      rw [List.length_take]
      omega
    obtain ⟨whole, hwhole⟩ := exists_bitsOfBytes_eq hlength
    rw [← hwhole, map_bitGroups_bitsOfBytes] at hbytes
    cases hbytes
    -- What is left are zeros.
    have hrest : bits.drop (bits.length / 8 * 8) =
        .replicate (bits.drop (bits.length / 8 * 8)).length false := by
      refine List.eq_replicate_iff.mpr ⟨rfl, fun b hb => ?_⟩
      exact Bool.not_eq_eq_eq_not.mp (List.all_eq_true.mp hzeros b hb)
    have hbits : bits = bitsOfBytes bs ++
        .replicate (bits.drop (bits.length / 8 * 8)).length false := by
      rw [← hrest, hwhole, List.take_append_drop]
    rw [eq_base32Values hlt hshort hbits, base32Digits_eq]
  · rintro rfl
    exact readBase32?_base32Digits bs

end Text

namespace Chain

/-- **The key of a blob is faithful to its digest.** It is a fixed path with 55 characters of the
alphabet behind it. They are read as the mark, the length and the 32 bytes of the digest, they alone
are read as these, and as a number they are the number of these 34 bytes in front of three zeros. So
two blobs have one key exactly if they have one digest. -/
theorem blobKey_faithful :
    (∀ data, ∃ digits : List Char, blobKey data = "/blocks/" ++ .ofList digits ∧
      digits.length = 55 ∧ (∀ c ∈ digits, Text.InAlphabet c) ∧
      (Digest.keccak256 data).length = 32 ∧
      (∀ cs, Text.readBase32? cs = some (0x1b :: 0x20 :: Digest.keccak256 data) ↔ cs = digits) ∧
      Text.number32? digits = some (8 * Rlp.ofBigEndian (0x1b :: 0x20 :: Digest.keccak256 data))) ∧
    ∀ data other, blobKey data = blobKey other ↔
      Digest.keccak256 data = Digest.keccak256 other := by
  refine ⟨fun data => ?_, fun data other => blobKey_eq_iff⟩
  have hdigest := Digest.length_keccak256 data
  have hbytes : (multihash data).length = 34 := by
    rw [multihash, List.length_cons, List.length_cons, hdigest]
  have hlength := Text.length_base32Digits (multihash data)
  obtain ⟨k, -, hzeros, hnumber⟩ := Text.number32?_base32Digits (multihash data)
  rw [hbytes] at hlength hzeros
  obtain rfl : k = 3 := by omega
  exact ⟨Text.base32Digits (multihash data), rfl, hlength, fun c => Text.inAlphabet_of_mem, hdigest,
    fun cs => Text.readBase32?_eq_some_iff, hnumber⟩

end Chain

end ChainMigration
