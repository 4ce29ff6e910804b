import ChainMigration.Block.Gap
import Mathlib.Data.String.Basic

/-! # The text of a gap file can be read back

The records of gaps, one after the other, tell the ranges of the gaps in order
(`ranges_eq_of_records_eq`). Each of the two numbers of a record is a run of digits with something
else behind it, so where it ends is seen in the text alone (`eq_of_append_cons_eq`). -/

namespace ChainMigration

/-- The records of gaps, one after the other. -/
def records (gaps : List Gap) : String := String.join (gaps.map Gap.record)

@[simp]
theorem records_nil : records [] = "" := String.join_nil

theorem records_cons (gap : Gap) (gaps : List Gap) :
    records (gap :: gaps) = gap.record ++ records gaps := String.join_cons

theorem records_append (gaps more : List Gap) :
    records (gaps ++ more) = records gaps ++ records more := by
  rw [records, List.map_append, String.join_append]
  rfl

/-- A text ends before the first occurrence of a character that is not in it. -/
theorem eq_of_append_cons_eq {α : Type} {c : α} :
    ∀ {l m rest rest' : List α}, c ∉ l → c ∉ m → l ++ c :: rest = m ++ c :: rest' →
      l = m ∧ rest = rest'
  | [], [], _, _, _, _, h => ⟨rfl, (List.cons.inj h).2⟩
  | [], b :: m, _, _, _, hm, h => by
    rw [(List.cons.inj h).1] at hm
    exact absurd List.mem_cons_self hm
  | a :: l, [], _, _, hl, _, h => by
    rw [← (List.cons.inj h).1] at hl
    exact absurd List.mem_cons_self hl
  | a :: l, b :: m, _, _, hl, hm, h => by
    obtain ⟨hab, htail⟩ := List.cons.inj h
    obtain ⟨rfl, hrest⟩ := eq_of_append_cons_eq (List.not_mem_of_not_mem_cons hl)
      (List.not_mem_of_not_mem_cons hm) htail
    exact ⟨by rw [hab], hrest⟩

theorem not_mem_digits {c : Char} (hc : c.isDigit = false) (n : Nat) : c ∉ n.repr.toList := by
  intro hmem
  rw [Nat.toList_repr] at hmem
  have hdigit := Nat.isDigit_of_mem_toDigits (by decide) (by decide) hmem
  rw [hc] at hdigit
  cases hdigit

theorem eq_of_digits_eq {m n : Nat} (h : m.repr.toList = n.repr.toList) : m = n := by
  rw [Nat.toList_repr, Nat.toList_repr] at h
  calc m = Nat.ofDigitChars 10 (Nat.toDigits 10 m) 0 := Nat.ofDigitChars_ten_toDigits.symm
    _ = Nat.ofDigitChars 10 (Nat.toDigits 10 n) 0 := by rw [h]
    _ = n := Nat.ofDigitChars_ten_toDigits

namespace Gap

theorem toList_record (gap : Gap) : gap.record.toList =
    gap.range.start.repr.toList ++ ',' :: ' ' :: (gap.range.stop.repr.toList ++ ['\r', '\n']) := by
  show (toString gap.range.start ++ ", " ++ toString gap.range.stop ++ "\r\n").toList = _
  rw [String.toList_append, String.toList_append, String.toList_append, List.append_assoc,
    List.append_assoc]
  rfl

/-- **A record is read back** from the front of a text: it tells its range and where it ends. -/
theorem record_append_inj {gap gap' : Gap} {text text' : String}
    (h : gap.record ++ text = gap'.record ++ text') : gap.range = gap'.range ∧ text = text' := by
  have hlist := congrArg String.toList h
  rw [String.toList_append, String.toList_append, toList_record, toList_record] at hlist
  simp only [List.append_assoc, List.cons_append, List.nil_append] at hlist
  obtain ⟨hstart, hrest⟩ := eq_of_append_cons_eq (not_mem_digits (by decide) _)
    (not_mem_digits (by decide) _) hlist
  obtain ⟨hstop, htext⟩ := eq_of_append_cons_eq (not_mem_digits (by decide) _)
    (not_mem_digits (by decide) _) (List.cons.inj hrest).2
  have hstart := eq_of_digits_eq hstart
  have hstop := eq_of_digits_eq hstop
  refine ⟨?_, String.toList_inj.mp (List.cons.inj htext).2⟩
  cases hrange : gap.range
  cases hrange' : gap'.range
  simp only [hrange, hrange'] at hstart hstop
  subst hstart hstop
  rfl

theorem record_ne_empty (gap : Gap) : gap.record ≠ "" := by
  intro h
  have hlist := congrArg String.toList h
  rw [toList_record] at hlist
  exact List.append_ne_nil_of_right_ne_nil _ (List.cons_ne_nil _ _) hlist

end Gap

/-- **The text of records tells the ranges of the gaps in order.** -/
theorem ranges_eq_of_records_eq :
    ∀ {gaps gaps' : List Gap}, records gaps = records gaps' →
      gaps.map (·.range) = gaps'.map (·.range)
  | [], [], _ => rfl
  | [], gap' :: gaps', h => by
    rw [records_cons] at h
    exact absurd (String.append_eq_empty_iff.mp h.symm).1 gap'.record_ne_empty
  | gap :: gaps, [], h => by
    rw [records_cons] at h
    exact absurd (String.append_eq_empty_iff.mp h).1 gap.record_ne_empty
  | gap :: gaps, gap' :: gaps', h => by
    rw [records_cons, records_cons] at h
    obtain ⟨hrange, hrest⟩ := Gap.record_append_inj h
    rw [List.map_cons, List.map_cons, hrange, ranges_eq_of_records_eq hrest]

end ChainMigration
