import ChainMigration.Text.Decimal
import Mathlib.Data.List.Basic
import Mathlib.Data.List.Induction

/-! # Texts that denote numbers

A text denotes a number if it is made of decimal digits, with or without a plus sign in front.
Reading finds exactly the numbers below its limit (`readUnsigned_eq_ok_iff`): more digits never make
a number smaller, so that stopping at the first digit that passes the limit loses none. Without
leading zeros a number has one text, the one that is written (`isDecimal_iff`). -/

namespace ChainMigration.Text

variable {limit acc n : Nat} {cs : List Char}

/-- **The characters denote a number** in decimal digits, with or without a plus sign in front. -/
def Denotes (cs : List Char) (n : Nat) : Prop :=
  ∃ digits, (cs = digits ∨ cs = '+' :: digits) ∧ digits ≠ [] ∧
    (∀ c ∈ digits, c.isDigit = true) ∧ Nat.ofDigitChars 10 digits 0 = n

theorem le_ofDigitChars : ∀ (cs : List Char) (acc : Nat), acc ≤ Nat.ofDigitChars 10 cs acc
  | [], _ => Nat.le_refl _
  | c :: cs, acc => by
    rw [Nat.ofDigitChars_cons]
    have := le_ofDigitChars cs (10 * acc + (c.toNat - '0'.toNat))
    omega

theorem readDigits_eq_ok_iff : ∀ {cs : List Char} {acc : Nat}, acc < limit →
    (readDigits limit acc cs = .ok n ↔
      (∀ c ∈ cs, c.isDigit = true) ∧ Nat.ofDigitChars 10 cs acc = n ∧ n < limit)
  | [], acc, hacc => by
    rw [readDigits, Except.ok.injEq, Nat.ofDigitChars_nil]
    constructor
    · rintro rfl
      exact ⟨fun _ h => absurd h List.not_mem_nil, rfl, hacc⟩
    · exact fun h => h.2.1
  | c :: cs, acc, _ => by
    rw [readDigits, List.forall_mem_cons, Nat.ofDigitChars_cons, Nat.mul_comm acc 10, digitValue]
    by_cases hdigit : c.isDigit = true
    · rw [if_pos hdigit]
      by_cases hlt : 10 * acc + (c.toNat - '0'.toNat) < limit
      · rw [if_pos hlt, readDigits_eq_ok_iff hlt, and_iff_right hdigit]
      · rw [if_neg hlt]
        refine iff_of_false (by rintro ⟨⟩) ?_
        rintro ⟨-, rfl, hn⟩
        exact hlt (Nat.lt_of_le_of_lt (le_ofDigitChars cs _) hn)
    · rw [if_neg hdigit]
      exact iff_of_false (by rintro ⟨⟩) fun h => hdigit h.1.1

theorem denotes_plus : Denotes ('+' :: cs) n ↔
    cs ≠ [] ∧ (∀ c ∈ cs, c.isDigit = true) ∧ Nat.ofDigitChars 10 cs 0 = n := by
  constructor
  · rintro ⟨digits, rfl | h, hne, hdigits, hn⟩
    · exact absurd (hdigits '+' List.mem_cons_self) (by decide)
    · cases h
      exact ⟨hne, hdigits, hn⟩
  · exact fun h => ⟨cs, Or.inr rfl, h⟩

theorem denotes_of_head_ne (h : cs.head? ≠ some '+') : Denotes cs n ↔
    cs ≠ [] ∧ (∀ c ∈ cs, c.isDigit = true) ∧ Nat.ofDigitChars 10 cs 0 = n := by
  constructor
  · rintro ⟨digits, rfl | rfl, hdigits⟩
    · exact hdigits
    · exact absurd rfl h
  · exact fun h => ⟨cs, Or.inl rfl, h⟩

/-- **A number is read** exactly if the text denotes it and it is below the limit. -/
theorem readUnsigned_eq_ok_iff (hlimit : 0 < limit) :
    readUnsigned limit cs = .ok n ↔ Denotes cs n ∧ n < limit := by
  unfold readUnsigned
  split
  · rw [denotes_of_head_ne (by decide)]
    exact iff_of_false (by rintro ⟨⟩) fun h => h.1.1 rfl
  · rw [denotes_plus]
    exact iff_of_false (by rintro ⟨⟩) fun h => h.1.1 rfl
  · next cs hne =>
    rw [readDigits_eq_ok_iff hlimit, denotes_plus, and_assoc, and_assoc]
    exact (and_iff_right fun h => hne (by rw [h])).symm
  · next hnil _ hplus =>
    have hhead : cs.head? ≠ some '+' := by
      intro h
      obtain ⟨rest, rfl⟩ := List.head?_eq_some_iff.mp h
      exact hplus rest rfl
    rw [readDigits_eq_ok_iff hlimit, denotes_of_head_ne hhead, and_assoc, and_assoc]
    exact (and_iff_right hnil).symm

/-! ### Written numbers -/

theorem isDigit_of_mem_toDigits {c : Char} (h : c ∈ Nat.toDigits 10 n) : c.isDigit = true :=
  Nat.isDigit_of_mem_toDigits (by decide) (by decide) h

theorem head?_toDigits_ne (hn : 0 < n) : (Nat.toDigits 10 n).head? ≠ some '0' := by
  induction n using Nat.strongRecOn with
  | ind n ih =>
    rw [Nat.toDigits_eq_if (by decide)]
    split
    · next hlt =>
      have hdigits : ∀ n < 10, 0 < n → Nat.digitChar n ≠ '0' := by decide
      simpa using hdigits n hlt hn
    · rw [List.head?_append_of_ne_nil _ Nat.toDigits_ne_nil]
      exact ih (n / 10) (by omega) (by omega)

/-- **The text is the decimal text of a number**: decimal digits, of which the first is a zero only
if it stands alone. -/
structure IsDecimal (text : String) (n : Nat) : Prop where
  digits : ∀ c ∈ text.toList, c.isDigit = true
  ne_nil : text.toList ≠ []
  leading : text.toList.head? = some '0' → text.toList = ['0']
  value : Nat.ofDigitChars 10 text.toList 0 = n

theorem isDecimal_toString (n : Nat) : IsDecimal (toString n) n := by
  have hlist : (toString n).toList = Nat.toDigits 10 n := Nat.toList_repr
  refine ⟨fun c hc => ?_, ?_, fun hzero => ?_, ?_⟩
  · rw [hlist] at hc
    exact isDigit_of_mem_toDigits hc
  · rw [hlist]
    exact Nat.toDigits_ne_nil
  · rw [hlist] at hzero ⊢
    rcases Nat.eq_zero_or_pos n with rfl | hn
    · rfl
    · exact absurd hzero (head?_toDigits_ne hn)
  · rw [hlist, Nat.ofDigitChars_ten_toDigits]

theorem digitChar_of_isDigit {c : Char} (h : c.isDigit = true) :
    c.toNat - '0'.toNat < 10 ∧ Nat.digitChar (c.toNat - '0'.toNat) = c := by
  have hchars : ∀ d < 10, (Nat.digitChar d).toNat = d + 48 := by decide
  have hbounds : 48 ≤ c.toNat ∧ c.toNat ≤ 57 := by
    simpa [Char.isDigit, UInt32.le_iff_toNat_le] using h
  have hlt : c.toNat - '0'.toNat < 10 := by
    change c.toNat - 48 < 10
    omega
  refine ⟨hlt, ?_⟩
  rw [← Char.toNat_inj, hchars _ hlt]
  change c.toNat - 48 + 48 = c.toNat
  omega

theorem toDigits_ofDigitChars {cs : List Char} (hdigits : ∀ c ∈ cs, c.isDigit = true)
    (hne : cs ≠ []) (hzero : cs.head? = some '0' → cs = ['0']) :
    Nat.toDigits 10 (Nat.ofDigitChars 10 cs 0) = cs := by
  induction cs using List.reverseRecOn with
  | nil => exact absurd rfl hne
  | append_singleton cs c ih =>
    obtain ⟨hdigits, hc⟩ := List.forall_mem_append.mp hdigits
    obtain ⟨hlt, hchar⟩ := digitChar_of_isDigit (hc c List.mem_cons_self)
    rw [Nat.ofDigitChars_append, Nat.ofDigitChars_cons, Nat.ofDigitChars_nil]
    by_cases hfirst : cs = []
    · rw [hfirst, Nat.ofDigitChars_nil, Nat.mul_zero, Nat.zero_add, Nat.toDigits_of_lt_base hlt,
        hchar, List.nil_append]
    · rw [List.head?_append_of_ne_nil _ hfirst] at hzero
      have hhead : cs.head? ≠ some '0' := by
        intro hhead
        have hlength := congrArg List.length (hzero hhead)
        rw [List.length_append, List.length_singleton, List.length_singleton] at hlength
        exact hfirst (List.length_eq_zero_iff.mp (by omega))
      have hfront := ih hdigits hfirst fun h => absurd h hhead
      have hpos : 0 < Nat.ofDigitChars 10 cs 0 := by
        refine Nat.pos_of_ne_zero fun hnone => hhead ?_
        rw [← hfront, hnone]
        rfl
      generalize Nat.ofDigitChars 10 cs 0 = front at hfront hpos
      generalize c.toNat - '0'.toNat = last at hlt hchar
      rw [Nat.toDigits_of_base_le (by decide) (by omega),
        show (10 * front + last) / 10 = front by omega,
        show (10 * front + last) % 10 = last by omega, hfront, hchar]

/-- **A number has one decimal text**, the one that is written. -/
theorem isDecimal_iff {text : String} : IsDecimal text n ↔ text = toString n := by
  constructor
  · intro h
    have hlist := toDigits_ofDigitChars h.digits h.ne_nil h.leading
    rw [h.value, ← Nat.toList_repr] at hlist
    exact String.toList_inj.mp hlist.symm
  · rintro rfl
    exact isDecimal_toString n

end ChainMigration.Text
