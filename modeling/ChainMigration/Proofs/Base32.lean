import ChainMigration.Text.Base32
import Mathlib.Tactic.Ring

/-! # Base 32 text read back

A number has its bits back and bits have their number back (`ofBits_bitsOf`, `bitsOf_ofBits`). Cut
into groups of five and filled up with zeros, the bits of bytes are still there in front of fewer
than five zeros (`exists_flatMap_filled`), which is why the bytes are read back from their base 32
text (`readBase32?_base32Digits`) and different bytes have different texts (`base32_injective`). -/

namespace ChainMigration.Text

/-! ### Bits of numbers -/

theorem length_bitsOf (width n : Nat) : (bitsOf width n).length = width := by
  induction width with
  | zero => rfl
  | succ width ih => rw [bitsOf, List.length_cons, ih]

theorem ofBits_cons (b : Bool) (bits : List Bool) :
    ofBits (b :: bits) = 2 ^ bits.length * b.toNat + ofBits bits := by
  -- The fold from any number on.
  have hfold : ∀ (l : List Bool) (n : Nat),
      l.foldl (fun n b => 2 * n + b.toNat) n = 2 ^ l.length * n + ofBits l := by
    intro l
    induction l with
    | nil =>
      intro n
      simp [ofBits]
    | cons c l ih =>
      intro n
      rw [ofBits, List.foldl_cons, List.foldl_cons, ih, ih, List.length_cons, Nat.pow_succ]
      ring
  rw [ofBits, List.foldl_cons, hfold, Nat.mul_zero, Nat.zero_add]

theorem ofBits_lt (bits : List Bool) : ofBits bits < 2 ^ bits.length := by
  induction bits with
  | nil => decide
  | cons b bits ih =>
    rw [ofBits_cons, List.length_cons, Nat.pow_succ]
    cases b <;> simp only [Bool.toNat_false, Bool.toNat_true] <;> omega

/-- **A number is read back from its lowest bits.** -/
theorem ofBits_bitsOf (width n : Nat) : ofBits (bitsOf width n) = n % 2 ^ width := by
  induction width with
  | zero => simp [bitsOf, ofBits, Nat.mod_one]
  | succ width ih =>
    rw [bitsOf, ofBits_cons, length_bitsOf, ih, Nat.mod_pow_succ, Nat.toNat_testBit, Nat.add_comm]

theorem bitsOf_congr {width n m : Nat} (h : ∀ i < width, n.testBit i = m.testBit i) :
    bitsOf width n = bitsOf width m := by
  induction width with
  | zero => rfl
  | succ width ih =>
    rw [bitsOf, bitsOf, h width (Nat.lt_succ_self _), ih fun i hi => h i (Nat.lt_succ_of_lt hi)]

/-- **Bits are read back from their number.** -/
theorem bitsOf_ofBits (bits : List Bool) : bitsOf bits.length (ofBits bits) = bits := by
  induction bits with
  | nil => rfl
  | cons b bits ih =>
    have hlt := ofBits_lt bits
    have hbit (i : Nat) := Nat.testBit_two_pow_mul_add b.toNat hlt i
    rw [List.length_cons, bitsOf, ofBits_cons, hbit, if_neg (Nat.lt_irrefl _), Nat.sub_self,
      bitsOf_congr fun i hi => (hbit i).trans (if_pos hi), ih]
    cases b <;> rfl

/-! ### Groups of bits -/

theorem bitGroups_flatten {n : Nat} : ∀ {groups : List (List Bool)},
    (∀ group ∈ groups, group.length = n + 1) → bitGroups n groups.flatten = groups
  | [], _ => by rw [List.flatten_nil, bitGroups]
  | group :: groups, h => by
    obtain ⟨hgroup, hgroups⟩ := List.forall_mem_cons.mp h
    obtain ⟨b, bits, rfl⟩ := List.exists_cons_of_length_eq_add_one hgroup
    rw [List.length_cons, Nat.add_right_cancel_iff] at hgroup
    rw [List.flatten_cons, List.cons_append, bitGroups, ← hgroup, List.take_succ_cons,
      List.take_left, List.drop_left, hgroup, bitGroups_flatten hgroups]

theorem length_le_of_mem_bitGroups {n : Nat} {bits group : List Bool}
    (h : group ∈ bitGroups n bits) : group.length ≤ n + 1 := by
  induction bits using bitGroups.induct n with
  | case1 => simp [bitGroups] at h
  | case2 b rest ih =>
    rw [bitGroups, List.mem_cons] at h
    obtain rfl | h := h
    · exact List.length_take_le _ _
    · exact ih h

/-- A group that is filled up with zeros. -/
def filled (n : Nat) (group : List Bool) : List Bool :=
  group ++ .replicate (n + 1 - group.length) false

theorem length_filled {n : Nat} {group : List Bool} (h : group.length ≤ n + 1) :
    (filled n group).length = n + 1 := by
  rw [filled, List.length_append, List.length_replicate]
  omega

/-- **Groups that are filled up** have the bits in front of fewer zeros than a group has bits. -/
theorem exists_flatMap_filled (n : Nat) (bits : List Bool) : ∃ k < n + 1,
    (bitGroups n bits).flatMap (filled n) = bits ++ .replicate k false := by
  induction bits using bitGroups.induct n with
  | case1 => exact ⟨0, Nat.succ_pos n, by rw [bitGroups]; rfl⟩
  | case2 b rest ih =>
    obtain ⟨k, hk, hrest⟩ := ih
    rw [bitGroups, List.flatMap_cons, hrest]
    by_cases hlen : n ≤ rest.length
    · -- The first group is full.
      refine ⟨k, hk, ?_⟩
      have hfull : ((b :: rest).take (n + 1)).length = n + 1 := by
        rw [List.length_take, List.length_cons]
        omega
      rw [filled, hfull, Nat.sub_self, List.replicate_zero, List.append_nil, List.take_succ_cons,
        List.cons_append, ← List.append_assoc, List.take_append_drop, List.cons_append]
    · -- The first group is the last one.
      have hnone : rest.drop n = [] := List.drop_eq_nil_of_le (by omega)
      rw [hnone, bitGroups, List.flatMap_nil] at hrest
      refine ⟨n + 1 - (rest.length + 1), by omega, ?_⟩
      rw [hnone, ← hrest, List.append_nil, List.take_of_length_le (by simp; omega), filled,
        List.length_cons]

/-! ### Text -/

theorem base32Value?_base32Digit : ∀ n < 32, base32Value? (base32Digit n) = some n := by
  decide

theorem mapM_base32Value? : ∀ {values : List Nat}, (∀ n ∈ values, n < 32) →
    (values.map base32Digit).mapM base32Value? = some values
  | [], _ => rfl
  | n :: values, h => by
    obtain ⟨hn, hvalues⟩ := List.forall_mem_cons.mp h
    rw [List.map_cons, List.mapM_cons, base32Value?_base32Digit n hn, mapM_base32Value? hvalues]
    rfl

/-- The bits of bytes, highest first. -/
def bitsOfBytes (bs : Bytes) : List Bool := bs.flatMap fun b => bitsOf 8 b.toNat

theorem length_bitsOfBytes (bs : Bytes) : (bitsOfBytes bs).length = 8 * bs.length := by
  induction bs with
  | nil => rfl
  | cons b bs ih =>
    rw [bitsOfBytes, List.flatMap_cons, List.length_append, length_bitsOf, List.length_cons,
      ← bitsOfBytes, ih]
    omega

theorem map_bitGroups_bitsOfBytes (bs : Bytes) :
    (bitGroups 7 (bitsOfBytes bs)).map (fun group => UInt8.ofNat (ofBits group)) = bs := by
  have hwidth : ∀ group ∈ bs.map fun b => bitsOf 8 b.toNat, group.length = 7 + 1 := by
    intro group hgroup
    obtain ⟨b, -, rfl⟩ := List.mem_map.mp hgroup
    exact length_bitsOf 8 _
  rw [bitsOfBytes, List.flatMap_def, bitGroups_flatten hwidth, List.map_map]
  refine (List.map_congr_left fun b _ => ?_).trans (List.map_id bs)
  have hb : b.toNat < 2 ^ 8 := b.toNat_lt
  rw [Function.comp_apply, ofBits_bitsOf, Nat.mod_eq_of_lt hb, UInt8.ofNat_toNat]
  rfl

/-- **Bytes are read back** from their base 32 text. -/
theorem readBase32?_base32Digits (bs : Bytes) : readBase32? (base32Digits bs) = some bs := by
  obtain ⟨k, hk, hfilled⟩ := exists_flatMap_filled 4 (bitsOfBytes bs)
  set groups := (bitGroups 4 (bitsOfBytes bs)).map (filled 4) with hgroups
  have hfive (g : List Bool) (hg : g ∈ groups) : g.length = 5 := by
    obtain ⟨group, hgroup, rfl⟩ := List.mem_map.mp hg
    exact length_filled (length_le_of_mem_bitGroups hgroup)
  have hsmall : ∀ n ∈ groups.map ofBits, n < 32 := by
    intro n hn
    obtain ⟨g, hg, rfl⟩ := List.mem_map.mp hn
    have hlt := ofBits_lt g
    rwa [hfive g hg] at hlt
  have hdigits : base32Digits bs = (groups.map ofBits).map base32Digit := by
    rw [hgroups, List.map_map, List.map_map]
    rfl
  have hback : (groups.map ofBits).flatMap (bitsOf 5) =
      bitsOfBytes bs ++ .replicate k false := by
    rw [List.flatMap_def, List.map_map, ← hfilled, List.flatMap_def, ← hgroups]
    refine congrArg List.flatten ((List.map_congr_left fun g hg => ?_).trans (List.map_id groups))
    have h := bitsOf_ofBits g
    rwa [hfive g hg] at h
  have hlength := length_bitsOfBytes bs
  have hwhole : (bitsOfBytes bs ++ List.replicate k false).length / 8 * 8 =
      (bitsOfBytes bs).length := by
    rw [List.length_append, List.length_replicate]
    omega
  have hzeros : (List.replicate k false).all (!·) = true := by
    rw [List.all_eq_true]
    intro b hb
    rw [List.eq_of_mem_replicate hb]
    rfl
  rw [hdigits, readBase32?, mapM_base32Value? hsmall]
  simp only [Option.bind_eq_bind, Option.bind_some, hback, hwhole, List.take_left, List.drop_left,
    List.length_replicate, hzeros, map_bitGroups_bitsOfBytes, and_true]
  exact if_pos hk

/-- **Different bytes have different texts.** -/
theorem base32_injective {bs bs' : Bytes} (h : base32 bs = base32 bs') : bs = bs' := by
  have hdigits := String.ofList_injective h
  have hread := readBase32?_base32Digits bs
  rw [hdigits, readBase32?_base32Digits] at hread
  exact (Option.some.inj hread).symm

end ChainMigration.Text
