import ChainMigration.Proofs.HexText
import ChainMigration.Text.Blank
import Mathlib.Data.List.TakeWhile

/-! # Hexadecimal text between blanks

Trimming takes blanks from both ends and nothing else (`exists_blanks_around`, `trimmed_append`). So
what spells bytes after trimming are blanks, a mark that may be missing, the two digits of each byte
in either case, and blanks (`writes_iff`), and a text writes so many bytes exactly if it has twice
as many digits (`exists_writes_iff`). -/

namespace ChainMigration.Text

variable {before after cs digits : List Char} {bs : Bytes} {text : String} {count : Nat}

/-! ### Trimming -/

/-- **The characters are blanks**, as many as there are. -/
def AllBlank (cs : List Char) : Prop := ∀ c ∈ cs, isBlank c = true

theorem dropWhile_isBlank_append (h : AllBlank before) :
    (before ++ cs).dropWhile isBlank = cs.dropWhile isBlank := by
  rw [List.dropWhile_append_of_pos h]

/-- **Blanks around a text are no part of it.** -/
theorem trimmed_append (hbefore : AllBlank before) (hafter : AllBlank after) :
    trimmed (before ++ cs ++ after) = trimmed cs := by
  have hreverse : AllBlank after.reverse := fun c hc => hafter c (List.mem_reverse.mp hc)
  rw [trimmed, trimmed, List.append_assoc, dropWhile_isBlank_append hbefore, List.dropWhile_append]
  split
  · next hempty =>
    rw [List.isEmpty_iff] at hempty
    rw [hempty, ← List.append_nil after, List.dropWhile_append_of_pos hafter]
    rfl
  · rw [List.reverse_append, dropWhile_isBlank_append hreverse]

/-- **Nothing but blanks is taken away.** -/
theorem exists_blanks_around (cs : List Char) :
    ∃ before after, AllBlank before ∧ AllBlank after ∧ cs = before ++ trimmed cs ++ after := by
  refine ⟨cs.takeWhile isBlank, ((cs.dropWhile isBlank).reverse.takeWhile isBlank).reverse,
    fun c hc => List.mem_takeWhile_imp hc,
    fun c hc => List.mem_takeWhile_imp (List.mem_reverse.mp hc), ?_⟩
  rw [trimmed, List.append_assoc, ← List.reverse_append, List.takeWhile_append_dropWhile,
    List.reverse_reverse, List.takeWhile_append_dropWhile]

theorem trimmed_of_forall_not_blank (h : ∀ c ∈ cs, isBlank c = false) : trimmed cs = cs := by
  have hnone {l : List Char} (hl : ∀ c ∈ l, isBlank c = false) : l.dropWhile isBlank = l := by
    cases l with
    | nil => rfl
    | cons c l =>
      rw [List.dropWhile_cons_of_neg]
      rw [hl c List.mem_cons_self]
      decide
  rw [trimmed, hnone h, hnone fun c hc => h c (List.mem_reverse.mp hc), List.reverse_reverse]

theorem trimmed_eq_nil_iff : trimmed cs = [] ↔ AllBlank cs := by
  constructor
  · intro h
    obtain ⟨before, after, hbefore, hafter, hcs⟩ := exists_blanks_around cs
    rw [h, List.append_nil] at hcs
    rw [hcs]
    exact List.forall_mem_append.mpr ⟨hbefore, hafter⟩
  · intro h
    have hblank : trimmed (cs ++ [] ++ []) = trimmed [] :=
      trimmed_append h fun _ hc => absurd hc List.not_mem_nil
    rw [List.append_nil, List.append_nil] at hblank
    rw [hblank]
    rfl

/-! ### Digits and marks -/

/-- A hexadecimal digit of either case. -/
def IsHexDigit (c : Char) : Prop :=
  ('0' ≤ c ∧ c ≤ '9') ∨ ('a' ≤ c ∧ c ≤ 'f') ∨ ('A' ≤ c ∧ c ≤ 'F')

/-- **What may stand in front of hexadecimal digits.** -/
inductive IsMark : List Char → Prop
  | none : IsMark []
  | lower : IsMark ['0', 'x']
  | upper : IsMark ['0', 'X']

theorem isHexDigit_iff {c : Char} : IsHexDigit c ↔ ∃ n < 16, c.toLower = hexDigit n := by
  have hread : IsHexDigit c ↔ (hexValue? c).isSome = true := by
    have hdigit : c.isDigit = true ↔ '0' ≤ c ∧ c ≤ '9' := by
      simp [Char.isDigit, Char.le_def]
    simp only [IsHexDigit, hexValue?, hdigit]
    grind
  rw [hread, Option.isSome_iff_exists]
  simp only [hexValue?_eq_some_iff]

theorem mem_hexDigits {c : Char} (h : c ∈ hexDigits bs) : ∃ n < 16, c = hexDigit n := by
  induction bs with
  | nil => cases h
  | cons b bs ih =>
    have hb := b.toNat_lt
    rw [hexDigits, List.mem_cons, List.mem_cons] at h
    obtain rfl | rfl | h := h
    · exact ⟨b.toNat / 16, by omega, rfl⟩
    · exact ⟨b.toNat % 16, by omega, rfl⟩
    · exact ih h

theorem exists_hexDigits_eq_iff : (∃ bs : Bytes, bs.length = count ∧
    digits.map Char.toLower = hexDigits bs) ↔
      digits.length = 2 * count ∧ ∀ c ∈ digits, IsHexDigit c := by
  constructor
  · rintro ⟨bs, rfl, h⟩
    refine ⟨?_, fun c hc => ?_⟩
    · rw [← length_hexDigits, ← h, List.length_map]
    · obtain ⟨n, hn, hdigit⟩ := mem_hexDigits (h ▸ List.mem_map_of_mem hc)
      exact isHexDigit_iff.mpr ⟨n, hn, hdigit⟩
  · rintro ⟨hlength, h⟩
    induction count generalizing digits with
    | zero =>
      rw [List.length_eq_zero_iff.mp hlength]
      exact ⟨[], rfl, rfl⟩
    | succ count ih =>
      obtain ⟨c, tail, rfl⟩ := List.exists_cons_of_length_eq_add_one hlength
      obtain ⟨d, rest, rfl⟩ := List.exists_cons_of_length_eq_add_one (Nat.succ.inj hlength)
      obtain ⟨hc, hd, hrest⟩ : IsHexDigit c ∧ IsHexDigit d ∧ ∀ c ∈ rest, IsHexDigit c := by
        simpa only [List.forall_mem_cons] using h
      obtain ⟨bs, hbs, hdigits⟩ := ih (by simpa [Nat.mul_succ] using hlength) hrest
      obtain ⟨high, hhigh, hc⟩ := isHexDigit_iff.mp hc
      obtain ⟨low, hlow, hd⟩ := isHexDigit_iff.mp hd
      have hbyte : (UInt8.ofNat (16 * high + low)).toNat = 16 * high + low :=
        UInt8.toNat_ofNat_of_lt' (by rw [UInt8.size]; omega)
      refine ⟨.ofNat (16 * high + low) :: bs, congrArg (· + 1) hbs, ?_⟩
      rw [hexDigits, hbyte, show (16 * high + low) / 16 = high by omega,
        show (16 * high + low) % 16 = low by omega, List.map_cons, List.map_cons, hc, hd, hdigits]

/-- **What spells bytes** is a mark that may be missing and the digits of the bytes. -/
theorem spellsHex_iff : SpellsHex cs bs ↔
    ∃ mark digits, IsMark mark ∧ cs = mark ++ digits ∧ digits.map Char.toLower = hexDigits bs := by
  constructor
  · rintro (h | h)
    · exact ⟨[], cs, .none, rfl, h⟩
    · obtain ⟨zero, tail, rfl, hzero, htail⟩ := List.map_eq_cons_iff.mp h
      obtain ⟨x, digits, rfl, hx, hdigits⟩ := List.map_eq_cons_iff.mp htail
      obtain rfl := eq_zero_of_toLower_eq hzero
      obtain rfl | rfl := eq_x_or_eq_of_toLower_eq hx
      · exact ⟨_, digits, .lower, rfl, hdigits⟩
      · exact ⟨_, digits, .upper, rfl, hdigits⟩
  · rintro ⟨mark, digits, hmark, rfl, h⟩
    cases hmark with
    | none => exact Or.inl h
    | lower => exact (spellsHex_mark rfl).mpr h
    | upper => exact (spellsHex_mark rfl).mpr h

/-! ### Between blanks -/

/-- **The text writes bytes**: between blanks, two digits of either case for each byte, with or
without a mark in front. -/
def Writes (text : String) (bs : Bytes) : Prop :=
  ∃ before mark digits after, text.toList = before ++ (mark ++ digits) ++ after ∧
    AllBlank before ∧ AllBlank after ∧ IsMark mark ∧ digits.map Char.toLower = hexDigits bs

/-- **The text has so many digits** between blanks, with or without a mark in front. -/
def IsHexText (count : Nat) (text : String) : Prop :=
  ∃ before mark digits after, text.toList = before ++ (mark ++ digits) ++ after ∧
    AllBlank before ∧ AllBlank after ∧ IsMark mark ∧ digits.length = count ∧
      ∀ c ∈ digits, IsHexDigit c

theorem isBlank_of_lt {c : Char} (hlow : 32 < c.toNat) (hhigh : c.toNat < 128) :
    isBlank c = false := by
  simp only [isBlank, Bool.or_eq_false_iff, Bool.and_eq_false_imp, beq_eq_false_iff_ne,
    decide_eq_true_eq, decide_eq_false_iff_not]
  omega

theorem isBlank_of_toLower_eq_hexDigit {c : Char} {n : Nat} (hn : n < 16)
    (h : c.toLower = hexDigit n) : isBlank c = false := by
  rw [← Char.toNat_inj, toNat_toLower, toNat_hexDigit n hn] at h
  exact isBlank_of_lt (by grind) (by grind)

theorem IsMark.not_blank {mark : List Char} (h : IsMark mark) : ∀ c ∈ mark, isBlank c = false := by
  cases h with
  | none => exact fun _ hc => absurd hc List.not_mem_nil
  | lower => exact List.forall_mem_cons.mpr ⟨rfl, List.forall_mem_singleton.mpr rfl⟩
  | upper => exact List.forall_mem_cons.mpr ⟨rfl, List.forall_mem_singleton.mpr rfl⟩

theorem not_blank_of_spellsHex (h : SpellsHex cs bs) : ∀ c ∈ cs, isBlank c = false := by
  obtain ⟨mark, digits, hmark, rfl, hdigits⟩ := spellsHex_iff.mp h
  refine List.forall_mem_append.mpr ⟨hmark.not_blank, fun c hc => ?_⟩
  obtain ⟨n, hn, hdigit⟩ := mem_hexDigits (hdigits ▸ List.mem_map_of_mem hc)
  exact isBlank_of_toLower_eq_hexDigit hn hdigit

theorem ne_nil_of_spellsHex (h : SpellsHex cs bs) (hlength : bs.length ≠ 0) : cs ≠ [] := by
  rintro rfl
  obtain ⟨mark, digits, -, hcs, hdigits⟩ := spellsHex_iff.mp h
  obtain ⟨-, rfl⟩ := List.append_eq_nil_iff.mp hcs.symm
  have hnone := congrArg List.length hdigits
  rw [length_hexDigits, List.map_nil, List.length_nil] at hnone
  omega

/-- **A text writes bytes** exactly if it spells them once it is trimmed. -/
theorem writes_iff : Writes text bs ↔ SpellsHex (trimmed text.toList) bs := by
  constructor
  · rintro ⟨before, mark, digits, after, htext, hbefore, hafter, hmark, h⟩
    have hspells : SpellsHex (mark ++ digits) bs := spellsHex_iff.mpr ⟨mark, digits, hmark, rfl, h⟩
    rwa [htext, trimmed_append hbefore hafter,
      trimmed_of_forall_not_blank (not_blank_of_spellsHex hspells)]
  · intro h
    obtain ⟨before, after, hbefore, hafter, htext⟩ := exists_blanks_around text.toList
    obtain ⟨mark, digits, hmark, hcore, h⟩ := spellsHex_iff.mp h
    exact ⟨before, mark, digits, after, hcore ▸ htext, hbefore, hafter, hmark, h⟩

/-- **A text writes so many bytes** exactly if it has twice as many digits. -/
theorem exists_writes_iff (count : Nat) :
    (∃ bs : Bytes, bs.length = count ∧ Writes text bs) ↔ IsHexText (2 * count) text := by
  constructor
  · rintro ⟨bs, hcount, before, mark, digits, after, htext, hbefore, hafter, hmark, h⟩
    exact ⟨before, mark, digits, after, htext, hbefore, hafter, hmark,
      exists_hexDigits_eq_iff.mp ⟨bs, hcount, h⟩⟩
  · rintro ⟨before, mark, digits, after, htext, hbefore, hafter, hmark, h⟩
    obtain ⟨bs, hcount, hdigits⟩ := exists_hexDigits_eq_iff.mpr h
    exact ⟨bs, hcount, before, mark, digits, after, htext, hbefore, hafter, hmark, hdigits⟩

end ChainMigration.Text
