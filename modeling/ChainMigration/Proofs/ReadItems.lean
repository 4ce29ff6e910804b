import ChainMigration.Proofs.Items
import Mathlib.Data.List.Basic
import Mathlib.Data.List.Induction

/-! # What is read as an item

Bytes without a leading zero are the bytes of their number (`bigEndian_ofBigEndian`), which is why
no header is accepted but the one that is written (`readHeader_eq_ok`). So an item is read exactly
if it stands in front as it is written, with a content whose length fits 64 bits
(`payload_eq_ok_iff`); from this it follows what is read as a number of items, as a string of a
given length and as a number (`skipItems_eq_ok_iff`, `fixed_eq_ok_iff`, `number_eq_ok_iff`). -/

namespace ChainMigration.Rlp

variable {kind : Kind} {bs content rest : Bytes} {n count : Nat}

/-! ### Bytes of numbers -/

theorem ofBigEndian_lt (bs : Bytes) : ofBigEndian bs < 256 ^ bs.length := by
  induction bs using List.reverseRecOn with
  | nil => decide
  | append_singleton bs b ih =>
    have hb : b.toNat < 256 := b.toNat_lt
    rw [ofBigEndian_concat, List.length_append, List.length_singleton, Nat.pow_succ]
    omega

theorem bigEndian_ofBigEndian (h : bs.head? ≠ some 0) : bigEndian (ofBigEndian bs) = bs := by
  induction bs using List.reverseRecOn with
  | nil => exact bigEndian_zero
  | append_singleton bs b ih =>
    have hb : b.toNat < 256 := b.toNat_lt
    have hfront : bigEndian (ofBigEndian bs) = bs := by
      refine ih fun hzero => h ?_
      rw [List.head?_append_of_ne_nil _ (by rintro rfl; cases hzero), hzero]
    have hne : ofBigEndian (bs ++ [b]) ≠ 0 := by
      rw [ofBigEndian_concat]
      intro hzero
      obtain ⟨hbs, hlast⟩ : ofBigEndian bs = 0 ∧ b.toNat = 0 := by omega
      -- Then nothing stands in front of the last byte, which is a leading zero.
      rw [hbs, bigEndian_zero] at hfront
      refine h ?_
      rw [← hfront, List.nil_append, List.head?_singleton, Option.some.injEq, ← UInt8.toNat_inj,
        hlast]
      rfl
    rw [bigEndian, if_neg hne, ofBigEndian_concat, show (256 * ofBigEndian bs + b.toNat) / 256 =
      ofBigEndian bs by omega, show (256 * ofBigEndian bs + b.toNat) % 256 = b.toNat by omega,
      hfront, UInt8.ofNat_toNat]

/-! ### Headers -/

/-- The mark of an empty item. -/
def Kind.mark : Kind → Nat
  | .string => 0x80
  | .list => 0xc0

theorem item_of_not_alone (h : kind = .string → ¬ Alone content) :
    item kind content = lengthHeader kind.mark content.length ++ content := by
  cases kind with
  | string => exact encodeString_of_not_alone (h rfl)
  | list => exact item_list content

theorem cons_eq_lengthHeader_of_lt {b : UInt8} (base : Nat) (hbase : base ≤ b.toNat)
    (hshort : b.toNat - base < 56) : b :: bs = lengthHeader base (b.toNat - base) ++ bs := by
  rw [lengthHeader, if_pos hshort, Nat.add_sub_cancel' hbase, UInt8.ofNat_toNat,
    List.singleton_append]

theorem readLong_eq_ok {header : Header} (h : readLong kind count bs = .ok header) :
    header.kind = kind ∧ 56 ≤ header.payloadLength ∧
      (bigEndian header.payloadLength).length = count ∧
      bs = bigEndian header.payloadLength ++ header.rest := by
  unfold readLong at h
  split at h
  · cases h
  · next hthere =>
    split at h
    · cases h
    · next hzero =>
      split at h
      · cases h
      · next hlong =>
        cases h
        have hbytes : bigEndian (ofBigEndian (bs.take count)) = bs.take count := by
          refine bigEndian_ofBigEndian ?_
          rw [List.head?_take]
          split
          · rintro ⟨⟩
          · exact hzero
        refine ⟨rfl, Nat.not_lt.mp hlong, ?_, ?_⟩
        · rw [hbytes, List.length_take, Nat.min_eq_left (Nat.not_lt.mp hthere)]
        · rw [hbytes, List.take_append_drop]

theorem cons_eq_lengthHeader_of_readLong {header : Header} {b : UInt8} (base : Nat)
    (hbase : base + 55 ≤ b.toNat) (h : readLong kind (b.toNat - (base + 55)) bs = .ok header) :
    b :: bs = lengthHeader base header.payloadLength ++ header.rest := by
  obtain ⟨-, hlong, hcount, hbs⟩ := readLong_eq_ok h
  rw [lengthHeader, if_neg (Nat.not_lt.mpr hlong), hcount, Nat.add_sub_cancel' hbase,
    UInt8.ofNat_toNat, List.cons_append, ← hbs]

/-- **What is read as a header**: a byte that stands for itself, or the shortest header of a length
that fits 64 bits, unless it stands before a single byte that needs none. -/
theorem readHeader_eq_ok {header : Header} (h : readHeader bs = .ok header) :
    (∃ b tail, b < 0x80 ∧ bs = b :: tail ∧ header = ⟨.string, 1, bs⟩) ∨
      header.payloadLength < 256 ^ 8 ∧
        bs = lengthHeader header.kind.mark header.payloadLength ++ header.rest ∧
        (header.kind = .string → header.payloadLength = 1 →
          ∀ b tail, header.rest = b :: tail → ¬ b < 0x80) := by
  cases bs with
  | nil => cases h
  | cons b bs =>
    have hb : b.toNat < 256 := b.toNat_lt
    rw [readHeader_cons] at h
    split at h
    · next hself =>
      cases h
      exact Or.inl ⟨b, bs, hself, rfl, rfl⟩
    right
    split at h
    · split at h
      · -- The mark of a string of one byte.
        next hone =>
        split at h
        · cases h
        · next c tail =>
          split at h
          · cases h
          · next hc =>
            cases h
            refine ⟨(by decide : 1 < 256 ^ 8), ?_, ?_⟩
            · rw [cons_eq_lengthHeader_of_lt 0x80 (by omega) (by omega), hone]
              rfl
            · rintro - - b tail ⟨⟩
              exact hc
      · next hmany =>
        cases h
        refine ⟨by dsimp only; omega, cons_eq_lengthHeader_of_lt 0x80 (by omega) (by omega),
          fun _ hone => ?_⟩
        exact absurd hone (by dsimp only; omega)
    split at h
    · have hhead := cons_eq_lengthHeader_of_readLong 0x80 (by omega) h
      obtain ⟨hkind, hlong, hcount, -⟩ := readLong_eq_ok h
      rw [hkind]
      exact ⟨length_bigEndian_le_iff.mp (by omega), hhead, fun _ hone => by omega⟩
    split at h
    · cases h
      exact ⟨by dsimp only; omega, cons_eq_lengthHeader_of_lt 0xc0 (by omega) (by omega),
        by rintro ⟨⟩⟩
    · have hhead := cons_eq_lengthHeader_of_readLong 0xc0 (by omega) h
      obtain ⟨hkind, -, hcount, -⟩ := readLong_eq_ok h
      rw [hkind]
      exact ⟨length_bigEndian_le_iff.mp (by omega), hhead, by rintro ⟨⟩⟩

/-! ### Items -/

/-- **An item is there exactly as it is written**: its header is read if and only if the item stands
in front, with a content whose length fits 64 bits. -/
theorem decode_eq_ok_iff {header : Header} : Header.decode bs = .ok header ↔
    ∃ content rest, content.length < 256 ^ 8 ∧ bs = item header.kind content ++ rest ∧
      header.payloadLength = content.length ∧ header.rest = content ++ rest := by
  constructor
  · intro h
    obtain ⟨header', hread, h⟩ := bind_eq_ok.mp h
    split at h
    · cases h
    next hthere =>
    cases h
    have hlength : (header.rest.take header.payloadLength).length = header.payloadLength := by
      rw [List.length_take, Nat.min_eq_left (Nat.not_lt.mp hthere)]
    refine ⟨header.rest.take header.payloadLength, header.rest.drop header.payloadLength, ?_, ?_,
      hlength.symm, (List.take_append_drop _ _).symm⟩
    · rw [hlength]
      obtain ⟨b, tail, -, -, rfl⟩ | ⟨hfits, -⟩ := readHeader_eq_ok hread
      · exact (by decide : 1 < 256 ^ 8)
      · exact hfits
    · obtain ⟨b, tail, hself, rfl, rfl⟩ | ⟨-, hbs, hsingle⟩ := readHeader_eq_ok hread
      · exact (congrArg (· ++ tail) (encodeString_of_alone ⟨b, rfl, hself⟩)).symm
      · have halone : header.kind = .string → ¬ Alone (header.rest.take header.payloadLength) := by
          rintro hkind ⟨b, hb, hself⟩
          rw [hb] at hlength
          refine hsingle hkind hlength.symm b (header.rest.drop header.payloadLength) ?_ hself
          rw [← List.singleton_append, ← hb, List.take_append_drop]
        rw [item_of_not_alone halone, hlength, List.append_assoc, List.take_append_drop, ← hbs]
  · rintro ⟨content, rest, hfits, rfl, hlength, hrest⟩
    rw [decode_item hfits, ← hlength, ← hrest]

/-- **An item of a kind is read** exactly if it stands in front as it is written. -/
theorem payload_eq_ok_iff : payload kind bs = .ok (content, rest) ↔
    content.length < 256 ^ 8 ∧ bs = item kind content ++ rest := by
  constructor
  · intro h
    obtain ⟨header, hdecode, h⟩ := bind_eq_ok.mp h
    obtain ⟨content', rest', hfits, hbs, hlength, hrest⟩ := decode_eq_ok_iff.mp hdecode
    have hkind : header.kind = kind ∧ (content', rest') = (content, rest) := by
      rw [hrest, hlength, List.take_left, List.drop_left] at h
      cases hheader : header.kind <;> cases kind <;> rw [hheader] at h <;> cases h <;>
        exact ⟨rfl, rfl⟩
    obtain ⟨rfl, hcontent⟩ := hkind
    cases hcontent
    exact ⟨hfits, hbs⟩
  · rintro ⟨hfits, rfl⟩
    exact payload_item hfits rest

/-- **The bytes are one item**, of either kind, with a content whose length fits 64 bits. -/
def IsItem (bs : Bytes) : Prop := ∃ kind content, content.length < 256 ^ 8 ∧ bs = item kind content

theorem length_le_encodeString (content : Bytes) :
    content.length ≤ (encodeString content).length := by
  by_cases halone : Alone content
  · rw [encodeString_of_alone halone]
  · rw [encodeString_of_not_alone halone, List.length_append]
    exact Nat.le_add_left _ _

theorem encodeString_of_length (h : content.length = n) (hsome : 2 ≤ n) (hshort : n < 56) :
    encodeString content = .ofNat (0x80 + n) :: content := by
  have halone : ¬ Alone content := by
    rintro ⟨b, rfl, -⟩
    rw [List.length_singleton] at h
    omega
  rw [encodeString_of_not_alone halone, h, lengthHeader, if_pos hshort, List.singleton_append]

theorem isItem_encodeString (h : (encodeString content).length < 256 ^ 8) :
    IsItem (encodeString content) :=
  ⟨.string, content, Nat.lt_of_le_of_lt (length_le_encodeString content) h, rfl⟩

theorem skipItem_eq_ok_iff :
    skipItem bs = .ok rest ↔ ∃ front, IsItem front ∧ bs = front ++ rest := by
  unfold skipItem
  simp only [bind_eq_ok, pure_eq_ok]
  constructor
  · rintro ⟨header, hdecode, rfl⟩
    obtain ⟨content, rest, hfits, hbs, hlength, hrest⟩ := decode_eq_ok_iff.mp hdecode
    refine ⟨_, ⟨header.kind, content, hfits, rfl⟩, ?_⟩
    rw [hrest, hlength, List.drop_left, hbs]
  · rintro ⟨-, ⟨kind, content, hfits, rfl⟩, rfl⟩
    exact ⟨_, decode_item hfits rest, List.drop_left⟩

/-- **Items are skipped** exactly if so many items stand in front. -/
theorem skipItems_eq_ok_iff : skipItems count bs = .ok rest ↔
    ∃ items : List Bytes, items.length = count ∧ (∀ front ∈ items, IsItem front) ∧
      bs = items.flatten ++ rest := by
  induction count generalizing bs with
  | zero =>
    rw [skipItems, Except.ok.injEq]
    constructor
    · rintro rfl
      exact ⟨[], rfl, fun _ h => absurd h List.not_mem_nil, rfl⟩
    · rintro ⟨items, hcount, -, rfl⟩
      rw [List.length_eq_zero_iff.mp hcount]
      rfl
  | succ count ih =>
    simp only [skipItems, bind_eq_ok, skipItem_eq_ok_iff, ih]
    constructor
    · rintro ⟨tail, ⟨front, hfront, rfl⟩, items, rfl, hitems, rfl⟩
      refine ⟨front :: items, rfl, List.forall_mem_cons.mpr ⟨hfront, hitems⟩, ?_⟩
      rw [List.flatten_cons, List.append_assoc]
    · rintro ⟨items, hcount, hitems, rfl⟩
      obtain ⟨front, items, rfl⟩ := List.exists_cons_of_length_eq_add_one hcount
      obtain ⟨hfront, hitems⟩ := List.forall_mem_cons.mp hitems
      refine ⟨items.flatten ++ rest, ⟨front, hfront, ?_⟩, items, Nat.succ.inj hcount, hitems, rfl⟩
      rw [List.flatten_cons, List.append_assoc]

theorem fixed_eq_ok_iff : fixed count bs = .ok (content, rest) ↔
    content.length = count ∧ content.length < 256 ^ 8 ∧ bs = encodeString content ++ rest := by
  unfold fixed
  rw [bind_eq_ok]
  constructor
  · rintro ⟨⟨content', rest'⟩, hread, h⟩
    dsimp only at h
    split at h
    · next hcount =>
      cases h
      exact ⟨hcount, payload_eq_ok_iff.mp hread⟩
    · cases h
  · rintro ⟨hcount, hread⟩
    exact ⟨_, payload_eq_ok_iff.mpr hread, if_pos hcount⟩

theorem number_eq_ok_iff : number bs = .ok (n, rest) ↔
    n < 2 ^ 256 ∧ bs = encodeString (bigEndian n) ++ rest := by
  have hpow : (256 : Nat) ^ 32 = 2 ^ 256 := by norm_num
  unfold number
  rw [bind_eq_ok, ← hpow]
  constructor
  · rintro ⟨⟨content, rest'⟩, hread, h⟩
    dsimp only at h
    split at h
    · cases h
    · next hzero =>
      split at h
      · next hshort =>
        cases h
        refine ⟨?_, ?_⟩
        · exact Nat.lt_of_lt_of_le (ofBigEndian_lt content)
            (Nat.pow_le_pow_right (by decide) hshort)
        · rw [bigEndian_ofBigEndian hzero]
          exact (payload_eq_ok_iff.mp hread).2
      · cases h
  · rintro ⟨hn, rfl⟩
    have hshort : (bigEndian n).length ≤ 32 := length_bigEndian_le_iff.mpr hn
    refine ⟨(bigEndian n, rest), payload_encodeString (by omega) rest, ?_⟩
    dsimp only
    rw [if_neg (head?_bigEndian_ne n), if_pos hshort, ofBigEndian_bigEndian]

end ChainMigration.Rlp
