import ChainMigration.Text.Hex
import Mathlib.Data.List.Basic

/-! # Reading hexadecimal text

Texts are read as bytes exactly if they spell them: they are the two digits of each byte, in either
case (`readHex?_eq_some_iff`), and behind a mark if one may stand there (`readHexOf?_eq_some_iff`).
-/

namespace ChainMigration.Text

/-! ### Digits -/

theorem toNat_toLower (c : Char) :
    c.toLower.toNat = if 65 ≤ c.toNat ∧ c.toNat ≤ 90 then c.toNat + 32 else c.toNat := by
  have hcase : c.val ≥ 'A'.val ∧ c.val ≤ 'Z'.val ↔ 65 ≤ c.toNat ∧ c.toNat ≤ 90 := by
    rw [ge_iff_le, UInt32.le_iff_toNat_le, UInt32.le_iff_toNat_le]
    rfl
  delta Char.toLower
  split
  · next h =>
    rw [if_pos (hcase.mp h)]
    have hle := (hcase.mp h).2
    change (c.val + 32).toNat = _
    rw [UInt32.toNat_add]
    change (c.toNat + 32) % 2 ^ 32 = _
    omega
  · next h => rw [if_neg (mt hcase.mpr h)]

theorem toNat_hexDigit : ∀ n < 16, (hexDigit n).toNat = if n < 10 then n + 48 else n + 87 := by
  decide

theorem hexValue?_eq_some_iff {c : Char} {n : Nat} :
    hexValue? c = some n ↔ n < 16 ∧ c.toLower = hexDigit n := by
  have hcase : hexValue? c = if 48 ≤ c.toNat ∧ c.toNat ≤ 57 then some (c.toNat - 48)
      else if 97 ≤ c.toNat ∧ c.toNat ≤ 102 then some (c.toNat - 97 + 10)
      else if 65 ≤ c.toNat ∧ c.toNat ≤ 70 then some (c.toNat - 65 + 10) else none := by
    simp [hexValue?, Char.isDigit, Char.le_def, UInt32.le_iff_toNat_le]
  rw [hcase]
  constructor
  · intro h
    have hn : n < 16 := by grind
    rw [← Char.toNat_inj, toNat_toLower, toNat_hexDigit n hn]
    grind
  · rintro ⟨hn, h⟩
    rw [← Char.toNat_inj, toNat_toLower, toNat_hexDigit n hn] at h
    grind

/-! ### Bytes -/

theorem length_hexDigits (bs : Bytes) : (hexDigits bs).length = 2 * bs.length := by
  induction bs with
  | nil => rfl
  | cons b bs ih =>
    rw [hexDigits, List.length_cons, List.length_cons, List.length_cons, ih]
    omega

/-- **Digits are read as bytes** exactly if they are the digits of the bytes in either case. -/
theorem readHex?_eq_some_iff {cs : List Char} {bs : Bytes} :
    readHex? cs = some bs ↔ cs.map Char.toLower = hexDigits bs := by
  induction cs using readHex?.induct generalizing bs with
  | case1 =>
    rw [readHex?, Option.some.injEq]
    cases bs with
    | nil => exact iff_of_true rfl rfl
    | cons b bs => exact iff_of_false (by rintro ⟨⟩) (by rintro ⟨⟩)
  | case2 c =>
    rw [readHex?]
    refine iff_of_false (by rintro ⟨⟩) fun h => ?_
    have hlength := congrArg List.length h
    rw [length_hexDigits] at hlength
    simp at hlength
    omega
  | case3 c d cs ih =>
    simp only [readHex?, Option.bind_eq_bind, Option.bind_eq_some_iff, Option.pure_def,
      Option.some.injEq, hexValue?_eq_some_iff, ih, List.map_cons]
    constructor
    · rintro ⟨high, ⟨hhigh, hc⟩, low, ⟨hlow, hd⟩, rest, hrest, rfl⟩
      have hbyte : (UInt8.ofNat (high * 16 + low)).toNat = high * 16 + low :=
        UInt8.toNat_ofNat_of_lt' (by rw [UInt8.size]; omega)
      rw [hexDigits, hbyte, show (high * 16 + low) / 16 = high by omega,
        show (high * 16 + low) % 16 = low by omega, hc, hd, hrest]
    · intro h
      cases bs with
      | nil => cases h
      | cons b bs =>
        have hb := b.toNat_lt
        rw [hexDigits, List.cons.injEq, List.cons.injEq] at h
        refine ⟨b.toNat / 16, ⟨by omega, h.1⟩, b.toNat % 16, ⟨by omega, h.2.1⟩, bs, h.2.2, ?_⟩
        rw [show b.toNat / 16 * 16 + b.toNat % 16 = b.toNat by omega, UInt8.ofNat_toNat]

/-- **The text spells bytes**: it has their digits, in either case, with or without a mark. -/
def SpellsHex (cs : List Char) (bs : Bytes) : Prop :=
  cs.map Char.toLower = hexDigits bs ∨ cs.map Char.toLower = '0' :: 'x' :: hexDigits bs

theorem hexDigits_ne_mark {bs : Bytes} {cs : List Char} : hexDigits bs ≠ '0' :: 'x' :: cs := by
  have hx : ∀ n < 16, hexDigit n ≠ 'x' := by decide
  cases bs with
  | nil => rintro ⟨⟩
  | cons b bs =>
    intro h
    rw [hexDigits, List.cons.injEq, List.cons.injEq] at h
    exact hx _ (Nat.mod_lt _ (by decide)) h.2.1

theorem spellsHex_mark {x : Char} {cs : List Char} {bs : Bytes} (hx : x.toLower = 'x') :
    SpellsHex ('0' :: x :: cs) bs ↔ cs.map Char.toLower = hexDigits bs := by
  have hmark : ('0' :: x :: cs).map Char.toLower = '0' :: 'x' :: cs.map Char.toLower := by
    rw [List.map_cons, List.map_cons, hx]
    rfl
  rw [SpellsHex, hmark, or_iff_right hexDigits_ne_mark.symm, List.cons.injEq, List.cons.injEq]
  simp only [true_and]

theorem eq_zero_of_toLower_eq {c : Char} (h : c.toLower = '0') : c = '0' := by
  rw [← Char.toNat_inj, toNat_toLower] at h
  rw [← Char.toNat_inj]
  change _ = 48 at h
  change _ = 48
  grind

theorem eq_x_or_eq_of_toLower_eq {c : Char} (h : c.toLower = 'x') : c = 'x' ∨ c = 'X' := by
  rw [← Char.toNat_inj, toNat_toLower] at h
  rw [← Char.toNat_inj, ← Char.toNat_inj]
  change _ = 120 at h
  change _ = 120 ∨ _ = 88
  grind

/-- **A text is read as so many bytes** exactly if it spells them. -/
theorem readHexOf?_eq_some_iff {count : Nat} {cs : List Char} {bs : Bytes} :
    readHexOf? count cs = some bs ↔ bs.length = count ∧ SpellsHex cs bs := by
  -- Digits of the right number are the digits of as many bytes.
  have hdigits (digits : List Char) :
      (if digits.length = 2 * count then readHex? digits else none) = some bs ↔
        bs.length = count ∧ digits.map Char.toLower = hexDigits bs := by
    rw [Option.ite_none_right_eq_some, readHex?_eq_some_iff]
    refine and_congr_left fun h => ?_
    rw [← List.length_map (f := Char.toLower), h, length_hexDigits]
    omega
  unfold readHexOf?
  dsimp only
  rw [hdigits]
  refine and_congr_right fun _ => ?_
  split
  · exact (spellsHex_mark rfl).symm
  · exact (spellsHex_mark rfl).symm
  · next hlower hupper =>
    refine (or_iff_left fun h => ?_).symm
    match cs, h with
    | [], h => cases h
    | [c], h => simp at h
    | c :: x :: rest, h =>
      rw [List.map_cons, List.map_cons, List.cons.injEq, List.cons.injEq] at h
      obtain ⟨hc, hx, -⟩ := h
      obtain rfl := eq_zero_of_toLower_eq hc
      obtain rfl | rfl := eq_x_or_eq_of_toLower_eq hx
      · exact hlower rest rfl
      · exact hupper rest rfl

end ChainMigration.Text
