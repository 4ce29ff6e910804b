import ChainMigration.Proofs.Except
import ChainMigration.Rlp.Item
import Mathlib.Tactic.Ring

/-! # Items read back

Every number has its bytes back (`ofBigEndian_bigEndian`), and an item in front of others is read
back with what follows it, as long as its length fits 64 bits (`payload_encodeString`,
`payload_encodeList`). Alone an item tells its content whatever its length
(`encodeString_injective`, `flatten_eq_of_encodeList_eq`): the header in front of a longer payload
is never shorter. -/

namespace ChainMigration.Rlp

/-! ### Bytes of numbers -/

theorem bigEndian_zero : bigEndian 0 = [] := by
  rw [bigEndian, if_pos rfl]

theorem ofBigEndian_concat (bs : Bytes) (b : UInt8) :
    ofBigEndian (bs ++ [b]) = 256 * ofBigEndian bs + b.toNat := by
  rw [ofBigEndian, List.foldl_append]
  rfl

/-- **A number is read back from its bytes.** -/
theorem ofBigEndian_bigEndian (n : Nat) : ofBigEndian (bigEndian n) = n := by
  induction n using bigEndian.induct with
  | case1 =>
    rw [bigEndian_zero]
    rfl
  | case2 n hn ih =>
    have hlast : (UInt8.ofNat (n % 256)).toNat = n % 256 :=
      UInt8.toNat_ofNat_of_lt' (Nat.mod_lt n (by decide))
    rw [bigEndian, if_neg hn, ofBigEndian_concat, ih, hlast]
    omega

theorem length_bigEndian_le_iff {n k : Nat} : (bigEndian n).length ≤ k ↔ n < 256 ^ k := by
  induction k generalizing n with
  | zero =>
    rw [Nat.le_zero, List.length_eq_zero_iff, Nat.pow_zero, Nat.lt_one_iff]
    refine ⟨fun h => ?_, fun h => h ▸ bigEndian_zero⟩
    rw [← ofBigEndian_bigEndian n, h]
    rfl
  | succ k ih =>
    rw [bigEndian]
    split
    · next hn => exact iff_of_true (Nat.zero_le _) (hn ▸ Nat.pow_pos (by decide))
    · rw [List.length_append, List.length_singleton, Nat.add_le_add_iff_right, ih, Nat.pow_succ,
        Nat.div_lt_iff_lt_mul (by decide)]

theorem length_bigEndian_mono {n m : Nat} (h : n ≤ m) :
    (bigEndian n).length ≤ (bigEndian m).length :=
  length_bigEndian_le_iff.mpr (Nat.lt_of_le_of_lt h (length_bigEndian_le_iff.mp (Nat.le_refl _)))

theorem length_bigEndian_pos {n : Nat} (h : n ≠ 0) : 0 < (bigEndian n).length := by
  rw [bigEndian, if_neg h, List.length_append]
  exact Nat.succ_pos _

theorem head?_bigEndian_ne (n : Nat) : (bigEndian n).head? ≠ some 0 := by
  induction n using bigEndian.induct with
  | case1 =>
    rw [bigEndian_zero]
    rintro ⟨⟩
  | case2 n hn ih =>
    rw [bigEndian, if_neg hn]
    by_cases hfirst : n / 256 = 0
    · have hlt : n < 256 := Nat.lt_of_div_eq_zero (by decide) hfirst
      rw [hfirst, bigEndian_zero, List.nil_append, List.head?_singleton, ne_eq,
        Option.some.injEq, ← UInt8.toNat_inj, Nat.mod_eq_of_lt hlt,
        UInt8.toNat_ofNat_of_lt' hlt]
      exact hn
    · have hlen := length_bigEndian_pos hfirst
      obtain ⟨b, bs, hbytes⟩ := List.exists_cons_of_length_pos hlen
      rw [hbytes] at ih ⊢
      exact ih

/-! ### Headers -/

theorem length_lengthHeader_mono (base : Nat) {n m : Nat} (h : n ≤ m) :
    (lengthHeader base n).length ≤ (lengthHeader base m).length := by
  have hmono := length_bigEndian_mono h
  unfold lengthHeader
  split <;> split <;> simp only [List.length_cons, List.length_nil] <;> omega

theorem length_lengthHeader_pos (base n : Nat) : 0 < (lengthHeader base n).length := by
  unfold lengthHeader
  split <;> exact Nat.succ_pos _

/-- A header tells where its payload ends: nothing is a shorter payload behind its own header. -/
theorem eq_of_lengthHeader_append_eq {base : Nat} {p p' : Bytes}
    (h : lengthHeader base p.length ++ p = lengthHeader base p'.length ++ p') : p = p' := by
  have hlength := congrArg List.length h
  rw [List.length_append, List.length_append] at hlength
  have heq : p.length = p'.length := by
    rcases Nat.lt_trichotomy p.length p'.length with hlt | heq | hlt
    · have := length_lengthHeader_mono base (Nat.le_of_lt hlt)
      omega
    · exact heq
    · have := length_lengthHeader_mono base (Nat.le_of_lt hlt)
      omega
  rw [heq] at h
  exact List.append_cancel_left h

theorem readLong_bigEndian {kind : Kind} {n : Nat} {rest : Bytes} (hn : 56 ≤ n) :
    readLong kind (bigEndian n).length (bigEndian n ++ rest) = .ok ⟨kind, n, rest⟩ := by
  have hlength : ¬ (bigEndian n ++ rest).length < (bigEndian n).length := by
    rw [List.length_append]
    omega
  have hzero : ¬ (bigEndian n ++ rest).head? = some 0 := by
    obtain ⟨b, bs, hbytes⟩ :=
      List.exists_cons_of_length_pos (length_bigEndian_pos (n := n) (by omega))
    have hhead := head?_bigEndian_ne n
    rw [hbytes] at hhead ⊢
    exact hhead
  rw [readLong, if_neg hlength, if_neg hzero, List.take_left, List.drop_left,
    ofBigEndian_bigEndian, if_neg (by omega)]

theorem readHeader_cons (b : UInt8) (bs : Bytes) : readHeader (b :: bs) =
    if b.toNat < 0x80 then .ok ⟨.string, 1, b :: bs⟩
    else if b.toNat < 0xb8 then
      if b.toNat = 0x81 then
        match bs with
        | [] => .error .tooShort
        | c :: _ => if c < 0x80 then .error .singleByte else .ok ⟨.string, 1, bs⟩
      else .ok ⟨.string, b.toNat - 0x80, bs⟩
    else if b.toNat < 0xc0 then readLong .string (b.toNat - 0xb7) bs
    else if b.toNat < 0xf8 then .ok ⟨.list, b.toNat - 0xc0, bs⟩
    else readLong .list (b.toNat - 0xf7) bs := by
  rw [readHeader.eq_def]
  simp only [UInt8.lt_iff_toNat_lt, ← UInt8.toNat_inj, UInt8.toNat_ofNat]
  rfl

theorem readHeader_string {n : Nat} {rest : Bytes} (hn : n < 256 ^ 8)
    (hsingle : n = 1 → ∃ b bs, rest = b :: bs ∧ ¬ b < 0x80) :
    readHeader (lengthHeader 0x80 n ++ rest) = .ok ⟨.string, n, rest⟩ := by
  unfold lengthHeader
  split
  · next hshort =>
    have hmark : (UInt8.ofNat (0x80 + n)).toNat = 0x80 + n :=
      UInt8.toNat_ofNat_of_lt' (by rw [UInt8.size]; omega)
    rw [List.singleton_append, readHeader_cons, hmark, if_neg (by omega), if_pos (by omega)]
    by_cases hone : n = 1
    · obtain ⟨b, bs, rfl, hb⟩ := hsingle hone
      subst hone
      rw [if_pos rfl]
      dsimp only
      rw [if_neg hb]
    · rw [if_neg (by omega), Nat.add_sub_cancel_left]
  · next hlong =>
    have hcount := length_bigEndian_le_iff.mpr hn
    have hpos := length_bigEndian_pos (n := n) (by omega)
    have hmark : (UInt8.ofNat (0x80 + 55 + (bigEndian n).length)).toNat =
        0x80 + 55 + (bigEndian n).length :=
      UInt8.toNat_ofNat_of_lt' (by rw [UInt8.size]; omega)
    rw [List.cons_append, readHeader_cons, hmark, if_neg (by omega), if_neg (by omega),
      if_pos (by omega), Nat.add_sub_cancel_left, readLong_bigEndian (by omega)]

theorem readHeader_list {n : Nat} {rest : Bytes} (hn : n < 256 ^ 8) :
    readHeader (lengthHeader 0xc0 n ++ rest) = .ok ⟨.list, n, rest⟩ := by
  unfold lengthHeader
  split
  · next hshort =>
    have hmark : (UInt8.ofNat (0xc0 + n)).toNat = 0xc0 + n :=
      UInt8.toNat_ofNat_of_lt' (by rw [UInt8.size]; omega)
    rw [List.singleton_append, readHeader_cons, hmark, if_neg (by omega), if_neg (by omega),
      if_neg (by omega), if_pos (by omega), Nat.add_sub_cancel_left]
  · next hlong =>
    have hcount := length_bigEndian_le_iff.mpr hn
    have hpos := length_bigEndian_pos (n := n) (by omega)
    have hmark : (UInt8.ofNat (0xc0 + 55 + (bigEndian n).length)).toNat =
        0xc0 + 55 + (bigEndian n).length :=
      UInt8.toNat_ofNat_of_lt' (by rw [UInt8.size]; omega)
    rw [List.cons_append, readHeader_cons, hmark, if_neg (by omega), if_neg (by omega),
      if_neg (by omega), if_neg (by omega), Nat.add_sub_cancel_left, readLong_bigEndian (by omega)]

/-! ### Items -/

/-- The byte stands for itself. -/
def Alone (bs : Bytes) : Prop := ∃ b, bs = [b] ∧ b < 0x80

theorem encodeString_of_alone {bs : Bytes} (h : Alone bs) : encodeString bs = bs := by
  obtain ⟨b, rfl, hb⟩ := h
  rw [encodeString, if_pos hb]

theorem encodeString_of_not_alone {bs : Bytes} (h : ¬ Alone bs) :
    encodeString bs = lengthHeader 0x80 bs.length ++ bs := by
  unfold encodeString
  split
  · next b =>
    rw [if_neg fun hb => h ⟨b, rfl, hb⟩]
    rfl
  · rfl

/-- The item of a kind that holds the content: a string of bytes, or a list with its items one after
the other. -/
def item : Kind → Bytes → Bytes
  | .string, content => encodeString content
  | .list, content => encodeList [content]

theorem item_list (content : Bytes) :
    item .list content = lengthHeader 0xc0 content.length ++ content := by
  rw [item, encodeList, List.flatten_singleton]

theorem encodeList_eq_item (items : List Bytes) : encodeList items = item .list items.flatten := by
  rw [item_list, encodeList]

/-- **The header of an item is read back**, and the content stands behind it. -/
theorem readHeader_item {kind : Kind} {content : Bytes} (h : content.length < 256 ^ 8)
    (rest : Bytes) :
    readHeader (item kind content ++ rest) = .ok ⟨kind, content.length, content ++ rest⟩ := by
  cases kind with
  | list =>
    rw [item_list, List.append_assoc]
    exact readHeader_list h
  | string =>
    rw [item]
    by_cases halone : Alone content
    · rw [encodeString_of_alone halone]
      obtain ⟨b, rfl, hb⟩ := halone
      rw [List.singleton_append, readHeader_cons, if_pos (show b.toNat < 0x80 from hb)]
      rfl
    · rw [encodeString_of_not_alone halone, List.append_assoc]
      refine readHeader_string h fun hone => ?_
      obtain ⟨b, rfl⟩ := List.length_eq_one_iff.mp hone
      exact ⟨b, rest, rfl, fun hb => halone ⟨b, rfl, hb⟩⟩

theorem decode_item {kind : Kind} {content : Bytes} (h : content.length < 256 ^ 8)
    (rest : Bytes) :
    Header.decode (item kind content ++ rest) = .ok ⟨kind, content.length, content ++ rest⟩ := by
  rw [Header.decode, readHeader_item h]
  dsimp only [bind, Except.bind]
  rw [if_neg (by rw [List.length_append]; omega)]

/-- **The content of an item is read back** with what follows the item. -/
theorem payload_item {kind : Kind} {content : Bytes} (h : content.length < 256 ^ 8)
    (rest : Bytes) : payload kind (item kind content ++ rest) = .ok (content, rest) := by
  rw [payload, decode_item h]
  dsimp only [bind, Except.bind]
  rw [List.take_left, List.drop_left]
  cases kind <;> rfl

theorem payload_encodeString {bs : Bytes} (h : bs.length < 256 ^ 8) (rest : Bytes) :
    payload .string (encodeString bs ++ rest) = .ok (bs, rest) := by
  rw [← item]
  exact payload_item h rest

theorem payload_encodeList {items : List Bytes} (h : items.flatten.length < 256 ^ 8)
    (rest : Bytes) : payload .list (encodeList items ++ rest) = .ok (items.flatten, rest) := by
  rw [encodeList_eq_item]
  exact payload_item h rest

/-- **A string alone tells its content**, whatever its length. -/
theorem encodeString_injective {bs bs' : Bytes} (h : encodeString bs = encodeString bs') :
    bs = bs' := by
  -- A byte that stands for itself is below all marks.
  have hne {a c : Bytes} (ha : Alone a) : a ≠ lengthHeader 0x80 c.length ++ c := by
    obtain ⟨b, rfl, hb⟩ := ha
    intro h
    cases c with
    | nil =>
      cases h
      exact absurd hb (by decide)
    | cons d ds =>
      have hlength := congrArg List.length h
      have hheader := length_lengthHeader_pos 0x80 (d :: ds).length
      rw [List.length_append, List.length_singleton] at hlength
      have hcons : (d :: ds).length = ds.length + 1 := rfl
      omega
  by_cases halone : Alone bs
  · by_cases halone' : Alone bs'
    · rwa [encodeString_of_alone halone, encodeString_of_alone halone'] at h
    · rw [encodeString_of_alone halone, encodeString_of_not_alone halone'] at h
      exact absurd h (hne halone)
  · by_cases halone' : Alone bs'
    · rw [encodeString_of_not_alone halone, encodeString_of_alone halone'] at h
      exact absurd h.symm (hne halone')
    · rw [encodeString_of_not_alone halone, encodeString_of_not_alone halone'] at h
      exact eq_of_lengthHeader_append_eq h

/-- **A list alone tells its payload**, whatever its length. -/
theorem flatten_eq_of_encodeList_eq {items items' : List Bytes}
    (h : encodeList items = encodeList items') : items.flatten = items'.flatten :=
  eq_of_lengthHeader_append_eq h

end ChainMigration.Rlp
