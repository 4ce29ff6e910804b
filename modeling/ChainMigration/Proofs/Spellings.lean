import ChainMigration.Proofs.HexText
import ChainMigration.Table.Name

/-! # Spellings of tables

The name of a table is trimmed and lowercased before it is looked up. Lowercasing is that of all
characters, but it makes an ASCII character of nothing else than an ASCII character, except for the
Kelvin sign, of which it makes a k (`lowercaseChar_cases`). No spelling of a table has a k, so a
text becomes one of them exactly if it is one but for the case of its ASCII letters
(`lowercase_eq_iff`). That is when a table has the spelling (`Table.HasSpelling`), and a spelling
belongs to one table (`Table.HasSpelling.unique`). -/

namespace ChainMigration

namespace Text

/-! ### Lowercasing to ASCII -/

/-- An ASCII character other than the k. -/
def IsPlain (c : Char) : Prop := c.toNat < 128 ∧ c ≠ 'k'

instance : DecidablePred IsPlain := fun c => inferInstanceAs (Decidable (c.toNat < 128 ∧ c ≠ 'k'))

/-- A run of the mapping is that of the ASCII capitals, or it is the Kelvin sign, or it does not
touch ASCII characters. -/
theorem mem_lowercaseRuns : ∀ run ∈ lowercaseRuns,
    (run.first = 0x41 ∧ run.last = 0x5A ∧ run.offset = 32) ∨
    (run.first = 0x212A ∧ run.last = 0x212A ∧ run.offset = 0x6B - 0x212A) ∨
    (128 ≤ run.first ∧ 128 ≤ run.first + run.offset ∧
      (run.last + run.offset < 0xD800 ∨
        (0xDFFF < run.first + run.offset ∧ run.last + run.offset < 0x110000))) := by
  decide +kernel

theorem toNat_ofNat {n : Nat} (h : n.isValidChar) : (Char.ofNat n).toNat = n := by
  rw [Char.ofNat, dif_pos h]
  rfl

/-- **A character is lowercased as an ASCII character**, or it is none and does not become one other
than the k. -/
theorem lowercaseChar_cases (c : Char) : lowercaseChar c = c.toLower ∨
    (128 ≤ c.toNat ∧ (128 ≤ (lowercaseChar c).toNat ∨ lowercaseChar c = 'k')) := by
  unfold lowercaseChar
  split
  · next run hrun =>
    have hcovers := List.find?_some hrun
    simp only [CaseRun.covers, Bool.and_eq_true, decide_eq_true_eq] at hcovers
    obtain ⟨⟨hfirst, hlast⟩, -⟩ := hcovers
    obtain ⟨h41, h5A, h32⟩ | ⟨hkelvin, hkelvin', hk⟩ | ⟨hbeyond, hfar, hvalid⟩ :=
      mem_lowercaseRuns run (List.mem_of_find?_eq_some hrun)
    · left
      rw [h32, ← Char.toNat_inj, toNat_toLower, toNat_ofNat (Or.inl (by omega)),
        if_pos (by omega)]
      omega
    · have hc : c.toNat = 0x212A := by omega
      right
      rw [hc, hk]
      exact ⟨by decide, Or.inr (by decide)⟩
    · right
      rw [toNat_ofNat (by unfold Nat.isValidChar; omega)]
      omega
  · next hnone =>
    left
    have hcapital := List.find?_eq_none.mp hnone _ List.mem_cons_self
    simp only [CaseRun.covers, Bool.and_eq_true, decide_eq_true_eq, beq_iff_eq, Nat.mod_one,
      and_true] at hcapital
    rw [← Char.toNat_inj, toNat_toLower, if_neg hcapital]

theorem lowercaseAt_cases (before : List Char) (c : Char) (after : List Char) :
    lowercaseAt before c after = [c.toLower] ∨
      (¬ IsPlain c.toLower ∧ ∃ d ∈ lowercaseAt before c after, ¬ IsPlain d) := by
  have hbeyond (hc : 128 ≤ c.toNat) : ¬ IsPlain c.toLower := by
    intro h
    have hlt := h.1
    rw [toNat_toLower, if_neg (by omega)] at hlt
    omega
  unfold lowercaseAt
  split
  · next hsigma =>
    refine Or.inr ⟨hbeyond (by omega), ?_⟩
    split
    · exact ⟨_, List.mem_singleton_self _, fun h => absurd h.1 (by decide)⟩
    · exact ⟨_, List.mem_singleton_self _, fun h => absurd h.1 (by decide)⟩
  · split
    · next hdotted =>
      exact Or.inr ⟨hbeyond (by omega), .ofNat 0x307, by decide, fun h => absurd h.1 (by decide)⟩
    · obtain h | ⟨hc, hfar⟩ := lowercaseChar_cases c
      · exact Or.inl (congrArg (fun d => [d]) h)
      · refine Or.inr ⟨hbeyond hc, _, List.mem_singleton_self _, fun h => ?_⟩
        obtain hfar | hk := hfar
        · exact absurd h.1 (Nat.not_lt.mpr hfar)
        · exact h.2 hk

theorem lowercaseFrom_eq_iff {before cs w : List Char} (hw : ∀ c ∈ w, IsPlain c) :
    lowercaseFrom before cs = w ↔ cs.map Char.toLower = w := by
  induction cs generalizing before w with
  | nil => exact Iff.rfl
  | cons c cs ih =>
    rw [lowercaseFrom, List.map_cons]
    obtain h | ⟨hplain, d, hd, hbeyond⟩ := lowercaseAt_cases before c cs
    · rw [h, List.singleton_append]
      cases w with
      | nil => exact iff_of_false (List.cons_ne_nil _ _) (List.cons_ne_nil _ _)
      | cons d w =>
        rw [List.cons.injEq, List.cons.injEq, ih fun d hd => hw d (List.mem_cons_of_mem _ hd)]
    · refine iff_of_false (fun h => hbeyond (hw d ?_)) (fun h => hplain (hw _ ?_))
      · exact h ▸ List.mem_append_left _ hd
      · exact h ▸ List.mem_cons_self

/-- **A text becomes a plain one** exactly if it is that one but for the case of ASCII letters. -/
theorem lowercase_eq_iff {s w : String} (hw : ∀ c ∈ w.toList, IsPlain c) :
    lowercase s = w ↔ s.toList.map Char.toLower = w.toList := by
  rw [lowercase, ← String.toList_inj, String.toList_ofList, lowercaseFrom_eq_iff hw]

end Text

namespace Table

variable {t u : Table} {name spelling : String}

/-- **The table has the spelling**: without the blanks around it and but for the case of ASCII
letters, it is one of the spellings of the table. -/
def HasSpelling (t : Table) (name : String) : Prop :=
  ∃ spelling ∈ t.spellings, (Text.trimmed name.toList).map Char.toLower = spelling.toList

theorem isPlain_of_mem_spellings (h : spelling ∈ t.spellings) :
    ∀ c ∈ spelling.toList, Text.IsPlain c := by
  -- A test of a spelling's own characters; deciding the statement may try all characters.
  have hplain : ∀ t ∈ all, ∀ spelling ∈ t.spellings, spelling.toList.all (Text.IsPlain ·) := by
    decide +kernel
  exact fun c hc => of_decide_eq_true (List.all_eq_true.mp (hplain t t.mem_all spelling h) c hc)

theorem eq_of_mem_spellings (ht : spelling ∈ t.spellings) (hu : spelling ∈ u.spellings) :
    t = u := by
  have hapart : ∀ t ∈ all, ∀ u ∈ all, ∀ spelling ∈ t.spellings, spelling ∈ u.spellings → t = u := by
    decide +kernel
  exact hapart t t.mem_all u u.mem_all spelling ht hu

theorem HasSpelling.unique (ht : t.HasSpelling name) (hu : u.HasSpelling name) : t = u := by
  obtain ⟨spelling, ht, hname⟩ := ht
  obtain ⟨spelling', hu, hname'⟩ := hu
  rw [String.toList_inj.mp (hname.symm.trans hname')] at ht
  exact eq_of_mem_spellings ht hu

/-- **A table is found** exactly by its spellings. -/
theorem ofText?_eq_some_iff : ofText? name = some t ↔ t.HasSpelling name := by
  have hfits (t : Table) : t.spellings.contains (Text.lowercase (Text.trim name)) = true ↔
      t.HasSpelling name := by
    rw [List.contains_iff_mem]
    constructor
    · intro h
      have hlower := (Text.lowercase_eq_iff (isPlain_of_mem_spellings h)).mp rfl
      rw [Text.trim, String.toList_ofList] at hlower
      exact ⟨_, h, hlower⟩
    · rintro ⟨spelling, h, hlower⟩
      have hname : Text.lowercase (Text.trim name) = spelling :=
        (Text.lowercase_eq_iff (isPlain_of_mem_spellings h)).mpr
          (by rwa [Text.trim, String.toList_ofList])
      rwa [hname]
  unfold ofText?
  generalize Text.lowercase (Text.trim name) = text at hfits ⊢
  have hfound {u : Table} (h : all.find? (fun u : Table => u.spellings.contains text) = some u) :
      u.HasSpelling name :=
    (hfits u).mp (List.find?_some (p := fun u : Table => u.spellings.contains text) h)
  refine ⟨hfound, fun h => ?_⟩
  have hsome : (all.find? (fun u : Table => u.spellings.contains text)).isSome = true :=
    List.find?_isSome.mpr ⟨t, t.mem_all, (hfits t).mpr h⟩
  obtain ⟨u, hu⟩ := Option.isSome_iff_exists.mp hsome
  exact hu.trans (congrArg some ((hfound hu).unique h))

end Table

end ChainMigration
