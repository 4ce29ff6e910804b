import ChainMigration.Proofs.PlainText

/-! # Quoted texts read back

Between single quotes a quote is written twice, and the breaks that may stand there are kept;
between double quotes whatever cannot be shown is escaped. Both are read word by word, with the
blanks or breaks between. -/

namespace ChainMigration.Yaml

variable {c : Cursor} {cs w tail t rest : List Char} {k m n indent fuel : Nat}

/-! ### Breaks between words -/

namespace Spacing

theorem scan_further (column : Int) {s : Spacing} {bs : List Char} (hbroken : s.broken = true)
    (hbreaks : ∀ b ∈ bs, isBreak b = true) (hrest : c.rest = bs ++ (Render.blanks k ++ rest))
    (hcolumn : c.column = 0) (hstop : ∀ d ∈ rest.head?, isSpaceOrBreak d = false)
    (hfuel : bs.length + k ≤ fuel) :
    scan column fuel s c = some ({ s with further := s.further ++ bs },
      ⟨rest, c.line + bs.length, k, c.index + bs.length + k⟩) := by
  induction bs generalizing fuel s c with
  | nil =>
    rw [scan_blanks column hrest hstop (by simpa using hfuel), hcolumn]
    obtain ⟨blanks, broken, first, further⟩ := s
    cases hbroken
    simp
  | cons b bs ih =>
    obtain ⟨hb, hbs⟩ := List.forall_mem_cons.mp hbreaks
    rw [List.length_cons] at hfuel
    obtain ⟨fuel, rfl⟩ : ∃ f, fuel = f + 1 := ⟨fuel - 1, by omega⟩
    have hadded : s.addBreak b = { s with further := s.further ++ [b] } := if_pos hbroken
    have hfuel : bs.length + k ≤ fuel := by omega
    have hlater := ih (s := { s with further := s.further ++ [b] })
      (c := ⟨bs ++ (Render.blanks k ++ rest), c.line + 1, 0, c.index + 1⟩) hbroken hbs rfl rfl hfuel
    rw [scan_break hrest hb, hadded]
    refine hlater.trans ?_
    simp [Nat.add_assoc, Nat.add_comm 1]

theorem scan_breaks (column : Int) {bs : List Char} (hbs : bs ≠ [])
    (hbreaks : ∀ b ∈ bs, isBreak b = true) (hnewline : '\n' ∉ bs)
    (hrest : c.rest = bs ++ (Render.blanks k ++ rest))
    (hstop : ∀ d ∈ rest.head?, isSpaceOrBreak d = false) (hfuel : bs.length + k ≤ fuel) :
    ∃ spacing, scan column fuel .none c =
        some (spacing, ⟨rest, c.line + bs.length, k, c.index + bs.length + k⟩) ∧
      spacing.text = bs := by
  obtain ⟨b, bs, rfl⟩ := List.exists_cons_of_ne_nil hbs
  obtain ⟨hb, hbreaks⟩ := List.forall_mem_cons.mp hbreaks
  rw [List.length_cons] at hfuel
  obtain ⟨fuel, rfl⟩ : ∃ f, fuel = f + 1 := ⟨fuel - 1, by omega⟩
  refine ⟨⟨[], true, [b], bs⟩, ?_, ?_⟩
  · have hfuel : bs.length + k ≤ fuel := by omega
    have hlater := scan_further column (s := ⟨[], true, [b], []⟩)
      (c := ⟨bs ++ (Render.blanks k ++ rest), c.line + 1, 0, c.index + 1⟩) rfl hbreaks rfl rfl hstop
      hfuel
    rw [scan_break hrest hb]
    refine hlater.trans ?_
    simp [Nat.add_assoc, Nat.add_comm 1]
  · have hne : b ≠ '\n' := fun h => hnewline (h ▸ List.mem_cons_self)
    simp [Spacing.text, hne]

end Spacing

namespace ScalarStyle

theorem hasPair_eq_false {p q : Char → Bool} (h : hasPair p q cs = false) (front : List Char)
    (a b : Char) (back : List Char) (hcs : cs = front ++ a :: b :: back) :
    p a = true → q b = false := by
  induction front generalizing cs with
  | nil =>
    subst hcs
    simp only [List.nil_append, hasPair, Bool.or_eq_false_iff, Bool.and_eq_false_iff] at h
    intro ha
    simpa [ha] using h.1
  | cons d front ih =>
    obtain ⟨e, es, he⟩ : ∃ e es, front ++ a :: b :: back = e :: es :=
      List.exists_cons_of_ne_nil (by simp)
    subst hcs
    rw [List.cons_append, he, hasPair, Bool.or_eq_false_iff] at h
    exact ih h.2 he.symm

/-- What a text between single quotes is made of. -/
structure IsSingle (cs : List Char) : Prop where
  printable : ∀ c ∈ cs, isPrintable c = true
  newline : '\n' ∉ cs
  afterBreak : ∀ front b d back, cs = front ++ b :: d :: back → isBreak b = true → d ≠ ' '
  beforeBreak : ∀ front d b back, cs = front ++ d :: b :: back → d = ' ' → isBreak b = false

theorem isSingle_of_allowsSingle (hnewline : '\n' ∉ cs) (h : allowsSingle cs = true) :
    IsSingle cs := by
  simp only [allowsSingle, Bool.not_eq_true', Bool.or_eq_false_iff] at h
  obtain ⟨⟨hspecial, hafter⟩, hbefore⟩ := h
  simp only [hasSpecial, List.any_eq_false, Bool.not_eq_true', Bool.not_eq_false] at hspecial
  refine ⟨hspecial, hnewline, fun front b d back hcs hb => ?_, fun front d b back hcs hd => ?_⟩
  · simpa using hasPair_eq_false hafter front b d back hcs hb
  · exact hasPair_eq_false hbefore front d b back hcs (by simpa using hd)

end ScalarStyle

namespace QuotedScalar

open Render (singleQuotedChars doubleQuotedChar escape)
open ScalarStyle (IsSingle)

/-! ### One word and what follows it -/

section

variable {single : Bool} {text : List Char} {c' c'' : Cursor} {d : Char}

theorem scan_end (hcolumn : 0 < c.column)
    (hword : word single (c.rest.length + 1) c = some (w, false, c'))
    (hrest : c'.rest = d :: rest) (hd : isSpaceOrBreak d = false) :
    scan single (fuel + 1) text c = some (text ++ w, c'.skip 1) := by
  rw [scan, Cursor.atDocumentMark_of_pos hcolumn]
  simp only [Bool.false_eq_true, if_false, hword, Option.bind_eq_bind, Option.bind_some, hrest]
  simp [hd]

theorem scan_goOn {spacing : Spacing} (hcolumn : 0 < c.column)
    (hword : word single (c.rest.length + 1) c = some (w, false, c'))
    (hrest : c'.rest = d :: rest) (hd : isSpaceOrBreak d = true)
    (hpass : Spacing.scan 0 c'.rest.length .none c' = some (spacing, c'')) :
    scan single (fuel + 1) text c = scan single fuel (text ++ w ++ spacing.text) c'' := by
  have hnone : ({ Spacing.none with broken := false } : Spacing) = .none := rfl
  rw [hrest, List.length_cons] at hpass
  rw [scan, Cursor.atDocumentMark_of_pos hcolumn]
  simp only [Bool.false_eq_true, if_false, hword, Option.bind_eq_bind, Option.bind_some, hrest]
  simp [hd, hnone, hpass]

end

/-! ### Single quotes -/

/-- **A word between single quotes is read**, its quotes as one each. -/
theorem word_single (hw : ∀ d ∈ w, isSpaceOrBreak d = false)
    (htail : (∃ d ds, tail = d :: ds ∧ isSpaceOrBreak d = true) ∨ ∃ ds, tail = '\'' :: '\n' :: ds)
    (hrest : c.rest = singleQuotedChars indent false w ++ tail) (hfuel : w.length < fuel) :
    ∃ column index, c.column ≤ column ∧
      word true fuel c = some (w, false, ⟨tail, c.line, column, index⟩) := by
  induction w generalizing fuel c with
  | nil =>
    obtain ⟨fuel, rfl⟩ : ∃ f, fuel = f + 1 := ⟨fuel - 1, by omega⟩
    refine ⟨c.column, c.index, Nat.le_refl _, ?_⟩
    have hrest : c.rest = tail := hrest
    rw [word, hrest]
    obtain ⟨d, ds, rfl, hd⟩ | ⟨ds, rfl⟩ := htail
    · simp [hd, ← hrest]
    · have hquote : isSpaceOrBreak '\'' = false := by decide
      simp [hquote, ← hrest]
  | cons d w ih =>
    obtain ⟨hd, hw⟩ := List.forall_mem_cons.mp hw
    rw [List.length_cons] at hfuel
    obtain ⟨fuel, rfl⟩ : ∃ f, fuel = f + 1 := ⟨fuel - 1, by omega⟩
    have hfuel : w.length < fuel := by omega
    have hbreak : isBreak d = false := (Bool.or_eq_false_iff.mp hd).2
    by_cases hquote : d = '\''
    · have hrest : c.rest = '\'' :: '\'' :: (singleQuotedChars indent false w ++ tail) := by
        rw [hrest, singleQuotedChars, hbreak, hquote]
        simp
      obtain ⟨column, index, hcolumn, hlater⟩ := ih hw (c := c.skip 2)
        (by simp [Cursor.skip, hrest]) hfuel
      refine ⟨column, index, by simp [Cursor.skip] at hcolumn; omega, ?_⟩
      rw [hquote] at hd
      rw [word, hrest]
      simp [hd, hlater, hquote]
      rfl
    · have hrest : c.rest = d :: (singleQuotedChars indent false w ++ tail) := by
        rw [hrest, singleQuotedChars, hbreak]
        simp [hquote]
      obtain ⟨column, index, hcolumn, hlater⟩ := ih hw (c := c.skip 1)
        (by simp [Cursor.skip, hrest]) hfuel
      refine ⟨column, index, by simp [Cursor.skip] at hcolumn; omega, ?_⟩
      rw [word, hrest]
      simp [hd, hlater, hquote]
      rfl

theorem singleQuotedChars_append {xs : List Char} (ys : List Char)
    (h : ∀ d ∈ xs, isBreak d = false) :
    singleQuotedChars indent false (xs ++ ys) =
      singleQuotedChars indent false xs ++ singleQuotedChars indent false ys := by
  induction xs with
  | nil => rfl
  | cons d xs ih =>
    obtain ⟨hd, hxs⟩ := List.forall_mem_cons.mp h
    simp [singleQuotedChars, hd, ih hxs]

theorem singleQuotedChars_blanks (k : Nat) :
    singleQuotedChars indent false (Render.blanks k) = Render.blanks k := by
  induction k with
  | zero => rfl
  | succ k ih =>
    have hbreak : isBreak ' ' = false := by decide
    rw [Render.blanks, List.replicate_succ, ← Render.blanks, singleQuotedChars, ih, hbreak]
    simp

/-- Breaks are written as they are, and what stands behind them is indented. -/
theorem singleQuotedChars_breaks {bs r : List Char} (hne : bs ≠ [])
    (hbs : ∀ b ∈ bs, isBreak b = true) (hr : ∀ d ∈ r.head?, isBreak d = false) :
    singleQuotedChars indent false (bs ++ r) =
      bs ++ (Render.blanks indent ++ singleQuotedChars indent false r) := by
  have hafter : singleQuotedChars indent true r =
      Render.blanks indent ++ singleQuotedChars indent false r := by
    cases r with
    | nil => simp [singleQuotedChars]
    | cons d r => simp [singleQuotedChars, hr d rfl]
  have hlater (afterBreak : Bool) : singleQuotedChars indent true (bs ++ r) =
      bs ++ (Render.blanks indent ++ singleQuotedChars indent false r) := by
    clear hne
    induction bs with
    | nil => exact hafter
    | cons b bs ih =>
      obtain ⟨hb, hbs⟩ := List.forall_mem_cons.mp hbs
      simp [singleQuotedChars, hb, ih hbs]
  obtain ⟨b, bs, rfl⟩ := List.exists_cons_of_ne_nil hne
  rw [← hlater true]
  simp [singleQuotedChars, hbs b List.mem_cons_self]

theorem length_le_singleQuotedChars (indent : Nat) (xs : List Char) (afterBreak : Bool) :
    xs.length ≤ (singleQuotedChars indent afterBreak xs).length := by
  induction xs generalizing afterBreak with
  | nil => exact Nat.zero_le _
  | cons d xs ih =>
    rw [singleQuotedChars]
    split
    · simpa using ih true
    · have hlater := ih false
      have hone : 1 ≤ (if d = '\'' then ['\'', '\''] else [d]).length := by split <;> simp
      simp only [List.length_append, List.length_cons]
      omega

theorem head_singleQuotedChars (indent : Nat) (x : List Char) {r : List Char}
    (hr : ∀ d ∈ r.head?, isSpaceOrBreak d = false) :
    ∀ d ∈ (singleQuotedChars indent false r ++ '\'' :: x).head?, isSpaceOrBreak d = false := by
  intro d hd
  cases r with
  | nil =>
    cases hd
    decide
  | cons e r =>
    have he := hr e rfl
    rw [singleQuotedChars, (Bool.or_eq_false_iff.mp he).2] at hd
    by_cases hquote : e = '\''
    · simp [hquote] at hd
      rw [← hd]
      decide
    · simp [hquote] at hd
      rwa [← hd]

/-- What stands between two words: blanks or breaks. -/
def IsGap (gap : List Char) : Prop :=
  gap ≠ [] ∧ '\n' ∉ gap ∧ ((∃ k, gap = Render.blanks k) ∨ ∀ b ∈ gap, isBreak b = true)

theorem exists_blanks (h : cs.head? = some ' ') :
    ∃ k rest, cs = Render.blanks (k + 1) ++ rest ∧ ∀ d ∈ rest.head?, d ≠ ' ' := by
  obtain ⟨spaces, rest, rfl, hspaces, hrest⟩ := exists_span (· == ' ') cs
  obtain ⟨k, rfl⟩ : ∃ k, spaces = Render.blanks (k + 1) := by
    cases spaces with
    | nil => simpa using hrest ' ' h
    | cons d ds =>
      exact ⟨ds.length, List.eq_replicate_iff.mpr ⟨rfl, fun x hx => by simpa using hspaces x hx⟩⟩
  exact ⟨k, rest, rfl, fun d hd => by simpa using hrest d hd⟩

/-- **Behind a word** blanks or breaks lead to the next word or to the end. -/
theorem exists_gap {front r : List Char} (h : IsSingle cs) (hcs : cs = front ++ r) (hr : r ≠ [])
    (hspace : ∀ d ∈ r.head?, isSpaceOrBreak d = true) :
    ∃ gap r', r = gap ++ r' ∧ IsGap gap ∧ ∀ d ∈ r'.head?, isSpaceOrBreak d = false := by
  obtain ⟨d, ds, rfl⟩ := List.exists_cons_of_ne_nil hr
  have hmem (e : Char) (he : e ∈ d :: ds) : e ∈ cs := hcs ▸ List.mem_append_right _ he
  have htab (e : Char) (he : e ∈ d :: ds) : e ≠ '\t' := by
    rintro rfl
    exact absurd (h.printable _ (hmem _ he)) (by decide)
  by_cases hbreak : isBreak d = true
  · obtain ⟨bs, r', hsplit, hbs, hr'⟩ := exists_span isBreak (d :: ds)
    have hne : bs ≠ [] := by
      rintro rfl
      rw [List.nil_append] at hsplit
      have := hr' d (by rw [← hsplit]; rfl)
      simp [hbreak] at this
    refine ⟨bs, r', hsplit, ⟨hne, fun hmem' => h.newline (hmem _ ?_), Or.inr hbs⟩, fun e he => ?_⟩
    · rw [hsplit]
      exact List.mem_append_left _ hmem'
    · have hmem' : e ∈ d :: ds := hsplit ▸ List.mem_append_right _ (List.mem_of_mem_head? he)
      obtain ⟨es, rfl⟩ := List.head?_eq_some_iff.mp he
      have hblank := h.afterBreak (front ++ bs.dropLast) (bs.getLast hne) e es (by
        rw [hcs, hsplit]
        nth_rewrite 1 [← List.dropLast_append_getLast hne]
        simp) (hbs _ (List.getLast_mem hne))
      simp [isSpaceOrBreak, isSpace, hr' e rfl, hblank, htab e hmem']
  · have hd : d = ' ' := by
      have := hspace d rfl
      simpa [isSpaceOrBreak, isSpace, hbreak, htab d List.mem_cons_self] using this
    have hhead : (d :: ds).head? = some ' ' := by rw [hd, List.head?_cons]
    obtain ⟨k, r', hsplit, hr'⟩ := exists_blanks hhead
    refine ⟨Render.blanks (k + 1), r', hsplit, ⟨List.cons_ne_nil _ _, ?_, Or.inl ⟨_, rfl⟩⟩,
      fun e he => ?_⟩
    · intro hmem'
      exact absurd (List.mem_replicate.mp hmem').2 (by decide)
    · have hmem' : e ∈ d :: ds := hsplit ▸ List.mem_append_right _ (List.mem_of_mem_head? he)
      obtain ⟨es, rfl⟩ := List.head?_eq_some_iff.mp he
      have hbreak := h.beforeBreak (front ++ Render.blanks k) ' ' e es (by
        rw [hcs, hsplit, Render.blanks, List.replicate_succ']
        simp [Render.blanks]) rfl
      simp [isSpaceOrBreak, isSpace, hbreak, hr' e rfl, htab e hmem']

theorem exists_cons_of_gap (indent : Nat) (r' x : List Char) {gap : List Char} (hgap : IsGap gap) :
    ∃ d ds, singleQuotedChars indent false (gap ++ r') ++ x = d :: ds ∧
      isSpaceOrBreak d = true := by
  obtain ⟨hne, -, hkind⟩ := hgap
  obtain ⟨d, ds, rfl⟩ := List.exists_cons_of_ne_nil hne
  by_cases hbreak : isBreak d = true
  · exact ⟨d, singleQuotedChars indent true (ds ++ r') ++ x, by simp [singleQuotedChars, hbreak],
      by simp [isSpaceOrBreak, hbreak]⟩
  · have hd : d = ' ' := by
      obtain ⟨k, hk⟩ | hbreaks := hkind
      · exact List.eq_of_mem_replicate (hk ▸ List.mem_cons_self : d ∈ Render.blanks k)
      · exact absurd (hbreaks d List.mem_cons_self) hbreak
    refine ⟨d, singleQuotedChars indent false (ds ++ r') ++ x, ?_, by rw [hd]; decide⟩
    have hquote : d ≠ '\'' := by
      rw [hd]
      decide
    simp [singleQuotedChars, hbreak, hquote]

/-- The blanks or breaks behind a word are passed. -/
theorem scan_gap {gap r' x : List Char} (hgap : IsGap gap)
    (hr' : ∀ d ∈ r'.head?, isSpaceOrBreak d = false) (hindent : 0 < indent)
    (hrest : c.rest = singleQuotedChars indent false (gap ++ r') ++ '\'' :: x)
    (hcolumn : 0 < c.column) :
    ∃ spacing line column index, Spacing.scan 0 c.rest.length .none c =
        some (spacing, ⟨singleQuotedChars indent false r' ++ '\'' :: x, line, column, index⟩) ∧
      spacing.text = gap ∧ c.line ≤ line ∧ 0 < column := by
  have hstop := head_singleQuotedChars indent x hr'
  obtain ⟨hne, hnewline, ⟨k, rfl⟩ | hbreaks⟩ := hgap
  · have hbreak : ∀ d ∈ Render.blanks k, isBreak d = false := fun d hd => by
      rw [(List.mem_replicate.mp hd).2]
      decide
    rw [singleQuotedChars_append _ hbreak, singleQuotedChars_blanks, List.append_assoc] at hrest
    refine ⟨_, _, _, _, Spacing.scan_blanks 0 hrest hstop (by simp [hrest, Render.blanks]), ?_,
      Nat.le_refl _, by omega⟩
    simp [Spacing.none, Spacing.text]
  · rw [singleQuotedChars_breaks hne hbreaks fun d hd => (Bool.or_eq_false_iff.mp (hr' d hd)).2,
      List.append_assoc, List.append_assoc] at hrest
    have hfuel : gap.length + indent ≤ c.rest.length := by
      rw [hrest]
      simp [Render.blanks]
    obtain ⟨spacing, hpass, htext⟩ := Spacing.scan_breaks 0 hne hbreaks hnewline hrest hstop hfuel
    exact ⟨spacing, _, _, _, hpass, htext, Nat.le_add_right _ _, hindent⟩

/-- **A text between single quotes is read** up to the closing quote. -/
theorem scan_single {text r : List Char} (h : IsSingle cs) (hcs : cs = text ++ r)
    (hindent : 0 < indent) (hrest : c.rest = singleQuotedChars indent false r ++ '\'' :: '\n' :: t)
    (hcolumn : 0 < c.column) (hfuel : r.length < fuel) :
    ∃ line column index, c.line ≤ line ∧
      scan true fuel text c = some (cs, ⟨'\n' :: t, line, column, index⟩) := by
  induction fuel generalizing text r c with
  | zero => omega
  | succ fuel ih =>
    obtain ⟨w, r, rfl, hw, hr⟩ := exists_span (fun d => !isSpaceOrBreak d) r
    have hw : ∀ d ∈ w, isSpaceOrBreak d = false := fun d hd => by simpa using hw d hd
    rw [singleQuotedChars_append r fun d hd => (Bool.or_eq_false_iff.mp (hw d hd)).2,
      List.append_assoc] at hrest
    have hlength : w.length < c.rest.length + 1 := by
      have := length_le_singleQuotedChars indent w false
      rw [hrest, List.length_append]
      omega
    cases hcase : r with
    | nil =>
      rw [hcase] at hrest hcs
      obtain ⟨column, index, hle, hword⟩ := word_single hw (Or.inr ⟨t, rfl⟩) hrest hlength
      refine ⟨c.line, column + 1, index + 1, Nat.le_refl _, ?_⟩
      rw [scan_end hcolumn hword rfl (by decide), hcs, List.append_nil]
      rfl
    | cons d ds =>
      have hsplit : cs = text ++ w ++ r := by rw [hcs, List.append_assoc]
      obtain ⟨gap, r', hsplit, hgap, hr'⟩ := exists_gap h hsplit (by simp [hcase])
        fun d hd => by simpa using hr d hd
      subst hsplit
      obtain ⟨d', ds', htail, hd'⟩ := exists_cons_of_gap indent r' ('\'' :: '\n' :: t) hgap
      obtain ⟨column, index, hle, hword⟩ := word_single hw (Or.inl ⟨d', ds', htail, hd'⟩) hrest
        hlength
      obtain ⟨spacing, line, column', index', hpass, htext, hline, hcolumn'⟩ := scan_gap
        (c := ⟨singleQuotedChars indent false (gap ++ r') ++ '\'' :: '\n' :: t, c.line, column,
          index⟩)
        hgap hr' hindent rfl (by dsimp only; omega)
      have hcs : cs = text ++ w ++ spacing.text ++ r' := by
        rw [hcs, htext]
        simp
      have hfuel : r'.length < fuel := by
        have := List.length_pos_of_ne_nil hgap.1
        simp only [List.length_append] at hfuel
        omega
      obtain ⟨line', column'', index'', hline', hlater⟩ := ih
        (c := ⟨singleQuotedChars indent false r' ++ '\'' :: '\n' :: t, line, column', index'⟩) hcs
        rfl hcolumn' hfuel
      refine ⟨line', column'', index'', Nat.le_trans hline hline', ?_⟩
      rw [scan_goOn hcolumn hword htail hd' hpass]
      exact hlater

/-! ### Escapes -/

theorem mapM_hexValue?_toDigits (n : Nat) :
    ∃ values, ((Nat.toDigits 16 n).map Char.toUpper).mapM Text.hexValue? = some values ∧
      values.foldl (fun n v => 16 * n + v) 0 = n := by
  have hdigit : ∀ v < 16, Text.hexValue? (Nat.digitChar v).toUpper = some v := by decide
  induction n using Nat.strongRecOn with
  | ind n ih =>
    rw [Nat.toDigits_eq_if (by decide)]
    split
    · next hlt => exact ⟨[n], by simp [hdigit n hlt], by simp⟩
    · next hle =>
      obtain ⟨values, hvalues, hn⟩ := ih (n / 16) (by omega)
      refine ⟨values ++ [n % 16], ?_, ?_⟩
      · rw [List.map_append, List.mapM_append, hvalues]
        simp [hdigit (n % 16) (by omega)]
      · rw [List.foldl_append, hn]
        simp
        omega

/-- A character is read from the digits of its number, with zeros in front of them. -/
theorem charOfHex?_toDigits (d : Char) (zeros : Nat) :
    charOfHex? (.replicate zeros '0' ++ (Nat.toDigits 16 d.toNat).map Char.toUpper) = some d := by
  obtain ⟨values, hvalues, hn⟩ := mapM_hexValue?_toDigits d.toNat
  have hzeros : (List.replicate zeros '0').mapM Text.hexValue? = some (.replicate zeros 0) := by
    induction zeros with
    | zero => rfl
    | succ zeros ih =>
      rw [List.replicate_succ, List.mapM_cons, ih]
      rfl
  have hfold : (List.replicate zeros 0).foldl (fun n v => 16 * n + v) 0 = 0 := by
    clear hzeros
    induction zeros with
    | zero => rfl
    | succ zeros ih => exact ih
  rw [charOfHex?, List.mapM_append, hzeros, hvalues]
  have hvalid : d.toNat.isValidChar := d.valid
  simp [hfold, hn, hvalid]

/-- An escape stands for a character. -/
inductive Stands (d : Char) : List Char → Prop
  | simple {e : Char} (hbreak : isBreak e = false) (he : simpleEscape? e = some d) :
    Stands d ['\\', e]
  | number {e : Char} {digits : List Char} (hbreak : isBreak e = false)
    (he : simpleEscape? e = none) (hwidth : escapeDigits? e = some digits.length)
    (hdigits : charOfHex? digits = some d) : Stands d ('\\' :: e :: digits)

/-- **The escape of a character stands for it.** -/
theorem stands_escape (d : Char) : Stands d (escape d) := by
  have hnumber (e : Char) (width : Nat) (hbreak : isBreak e = false) (he : simpleEscape? e = none)
      (hwidth : escapeDigits? e = some width) (hlt : d.toNat < 16 ^ width) (hpos : 0 < width) :
      Stands d ('\\' :: e ::
        .replicate (width - ((Nat.toDigits 16 d.toNat).map Char.toUpper).length) '0' ++
          (Nat.toDigits 16 d.toNat).map Char.toUpper) := by
    have hlength : ((Nat.toDigits 16 d.toNat).map Char.toUpper).length ≤ width := by
      rw [List.length_map]
      exact (Nat.length_toDigits_le_iff (by decide) hpos).mpr hlt
    refine .number hbreak he ?_ (charOfHex?_toDigits d _)
    rw [List.append_eq, List.length_append, List.length_replicate, Nat.sub_add_cancel hlength,
      hwidth]
  have hsimple {e : Char} {n : Nat} (hn : d.toNat = n) (hbreak : isBreak e = false)
      (he : simpleEscape? e = some (.ofNat n)) : Stands d ['\\', e] := by
    refine .simple hbreak ?_
    rw [he, ← hn, Char.ofNat_toNat]
  unfold escape
  split
  case h_15 =>
    split
    · next hle => exact hnumber 'x' 2 (by decide) (by decide) (by decide) (by omega) (by decide)
    · split
      · next hle => exact hnumber 'u' 4 (by decide) (by decide) (by decide) (by omega) (by decide)
      · have hlt : d.toNat < 16 ^ 8 := d.val.toNat_lt
        exact hnumber 'U' 8 (by decide) (by decide) (by decide) hlt (by decide)
  all_goals exact hsimple ‹_› (by decide) (by decide)

/-! ### Double quotes -/

theorem word_stands {d : Char} {chars : List Char} (h : Stands d chars)
    (hrest : c.rest = chars ++ rest) :
    word false (fuel + 1) c = do
      let (w, broken, c) ← word false fuel (c.skip chars.length)
      return (d :: w, broken, c) := by
  have hslash : isSpaceOrBreak '\\' = false := by decide
  have hquote : '\\' ≠ '\x22' := by decide
  cases h with
  | simple hbreak he =>
    rw [word, hrest]
    simp only [List.cons_append, hslash, Bool.false_eq_true, if_false, hquote, if_true, hbreak, he]
    rfl
  | @number e digits hbreak he hwidth hdigits =>
    have henough : ¬(digits ++ rest).length < digits.length := by
      rw [List.length_append]
      omega
    have hlength : ('\\' :: e :: digits).length = 2 + digits.length := by
      rw [List.length_cons, List.length_cons]
      omega
    rw [word, hrest, hlength]
    simp only [List.cons_append, hslash, Bool.false_eq_true, if_false, hquote, if_true, hbreak, he,
      hwidth, henough, List.take_left, hdigits]
    rfl

/-- A character between double quotes is escaped, or it means nothing else. -/
theorem doubleQuotedChar_cases (d : Char) : doubleQuotedChar d = escape d ∨
    doubleQuotedChar d = [d] ∧ (d ≠ ' ' → isSpaceOrBreak d = false) ∧ d ≠ '\x22' ∧ d ≠ '\\' := by
  rw [doubleQuotedChar]
  split
  · exact Or.inl rfl
  · next hescape =>
    simp only [Bool.or_eq_true, Bool.not_eq_true', beq_iff_eq, not_or, Bool.not_eq_false,
      Bool.not_eq_true] at hescape
    obtain ⟨⟨⟨hprintable, hbreak⟩, hquote⟩, hslash⟩ := hescape
    have htab : d ≠ '\t' := by
      rintro rfl
      exact absurd hprintable (by decide)
    exact Or.inr ⟨rfl, fun hd => by simp [isSpaceOrBreak, isSpace, hd, htab, hbreak], hquote,
      hslash⟩

theorem word_doubleQuotedChar {d : Char} (hd : d ≠ ' ')
    (hrest : c.rest = doubleQuotedChar d ++ rest) :
    word false (fuel + 1) c = do
      let (w, broken, c) ← word false fuel (c.skip (doubleQuotedChar d).length)
      return (d :: w, broken, c) := by
  obtain hchars | ⟨hchars, hword, hquote, hslash⟩ := doubleQuotedChar_cases d
  · rw [hchars] at hrest ⊢
    exact word_stands (stands_escape d) hrest
  · rw [hchars] at hrest ⊢
    rw [word, hrest]
    simp only [List.cons_append, hword hd, Bool.false_eq_true, if_false, hquote, hslash]
    rfl

/-- **A word between double quotes is read**, its escapes as the characters that they stand for. -/
theorem word_double (hw : ∀ d ∈ w, d ≠ ' ')
    (htail : ∃ d ds, tail = d :: ds ∧ (d = ' ' ∨ d = '\x22'))
    (hrest : c.rest = w.flatMap doubleQuotedChar ++ tail) (hfuel : w.length < fuel) :
    ∃ column index, c.column ≤ column ∧
      word false fuel c = some (w, false, ⟨tail, c.line, column, index⟩) := by
  induction w generalizing fuel c with
  | nil =>
    obtain ⟨fuel, rfl⟩ : ∃ f, fuel = f + 1 := ⟨fuel - 1, by omega⟩
    refine ⟨c.column, c.index, Nat.le_refl _, ?_⟩
    have hrest : c.rest = tail := hrest
    have hblank : isSpaceOrBreak ' ' = true := by decide
    have hquote : isSpaceOrBreak '\x22' = false := by decide
    rw [word, hrest]
    obtain ⟨d, ds, rfl, rfl | rfl⟩ := htail
    · simp [hblank, ← hrest]
    · simp [hquote, ← hrest]
  | cons d w ih =>
    obtain ⟨hd, hw⟩ := List.forall_mem_cons.mp hw
    rw [List.length_cons] at hfuel
    obtain ⟨fuel, rfl⟩ : ∃ f, fuel = f + 1 := ⟨fuel - 1, by omega⟩
    rw [List.flatMap_cons, List.append_assoc] at hrest
    have hfuel : w.length < fuel := by omega
    obtain ⟨column, index, hcolumn, hlater⟩ := ih hw (c := c.skip (doubleQuotedChar d).length)
      (by simp [Cursor.skip, hrest]) hfuel
    refine ⟨column, index, by simp only [Cursor.skip] at hcolumn; omega, ?_⟩
    rw [word_doubleQuotedChar hd hrest, hlater]
    rfl

theorem doubleQuotedChar_blank : doubleQuotedChar ' ' = [' '] := by decide

theorem flatMap_blanks (k : Nat) :
    (Render.blanks k).flatMap doubleQuotedChar = Render.blanks k := by
  induction k with
  | zero => rfl
  | succ k ih =>
    rw [Render.blanks, List.replicate_succ, ← Render.blanks, List.flatMap_cons, ih,
      doubleQuotedChar_blank]
    rfl

theorem exists_cons_doubleQuotedChar (d : Char) : ∃ e es, doubleQuotedChar d = e :: es ∧
    (d ≠ ' ' → isSpaceOrBreak e = false) := by
  obtain hchars | ⟨hchars, hword, -⟩ := doubleQuotedChar_cases d
  · have hslash : isSpaceOrBreak '\\' = false := by decide
    obtain ⟨es, hes⟩ : ∃ es, escape d = '\\' :: es := by
      generalize escape d = chars, stands_escape d = h at *
      cases h <;> exact ⟨_, rfl⟩
    exact ⟨'\\', es, hchars.trans hes, fun _ => hslash⟩
  · exact ⟨d, [], hchars, hword⟩

theorem length_le_flatMap (xs : List Char) : xs.length ≤ (xs.flatMap doubleQuotedChar).length := by
  induction xs with
  | nil => exact Nat.le_refl _
  | cons d xs ih =>
    obtain ⟨e, es, hchars, -⟩ := exists_cons_doubleQuotedChar d
    rw [List.flatMap_cons, hchars, List.length_append, List.length_cons, List.length_cons]
    omega

theorem head_flatMap (t : List Char) {r : List Char} (hr : ∀ d ∈ r.head?, d ≠ ' ') :
    ∀ e ∈ (r.flatMap doubleQuotedChar ++ '\x22' :: t).head?, isSpaceOrBreak e = false := by
  cases r with
  | nil =>
    rintro e ⟨⟩
    decide
  | cons d r =>
    obtain ⟨e, es, hchars, he⟩ := exists_cons_doubleQuotedChar d
    rw [List.flatMap_cons, hchars]
    rintro e ⟨⟩
    exact he (hr d rfl)

/-- **A text between double quotes is read** up to the closing quote. -/
theorem scan_double (text : List Char) {r : List Char}
    (hrest : c.rest = r.flatMap doubleQuotedChar ++ '\x22' :: t)
    (hcolumn : 0 < c.column) (hfuel : r.length < fuel) :
    ∃ column index, scan false fuel text c = some (text ++ r, ⟨t, c.line, column, index⟩) := by
  induction fuel generalizing text r c with
  | zero => omega
  | succ fuel ih =>
    have hquote : isSpaceOrBreak '\x22' = false := by decide
    obtain ⟨w, r, rfl, hw, hr⟩ := exists_span (· != ' ') r
    have hw : ∀ d ∈ w, d ≠ ' ' := fun d hd => by simpa using hw d hd
    rw [List.flatMap_append, List.append_assoc] at hrest
    have hlength : w.length < c.rest.length + 1 := by
      have := length_le_flatMap w
      rw [hrest, List.length_append]
      omega
    cases hcase : r with
    | nil =>
      rw [hcase] at hrest
      obtain ⟨column, index, -, hword⟩ := word_double hw ⟨'\x22', t, rfl, Or.inr rfl⟩ hrest hlength
      refine ⟨column + 1, index + 1, ?_⟩
      rw [scan_end hcolumn hword rfl hquote, List.append_nil]
      rfl
    | cons d ds =>
      have hd : d = ' ' := by simpa using hr d (by rw [hcase]; rfl)
      have hhead : r.head? = some ' ' := by rw [hcase, hd, List.head?_cons]
      obtain ⟨k, r', hsplit, hr'⟩ := exists_blanks hhead
      rw [← hcase, hsplit]
      rw [hsplit, List.flatMap_append, flatMap_blanks, List.append_assoc] at hrest
      obtain ⟨column, index, hle, hword⟩ := word_double hw ⟨' ', _, rfl, Or.inl rfl⟩ hrest hlength
      have hstop := head_flatMap t hr'
      generalize hlater : r'.flatMap doubleQuotedChar ++ '\x22' :: t = later at hword hstop
      have hfuel' : k + 1 ≤ (Render.blanks (k + 1) ++ later).length := by simp [Render.blanks]
      have hpass := Spacing.scan_blanks (s := .none) 0
        (c := ⟨Render.blanks (k + 1) ++ later, c.line, column, index⟩) rfl hstop hfuel'
      have hlength' : r'.length < fuel := by
        rw [hsplit] at hfuel
        simp [Render.blanks] at hfuel
        omega
      obtain ⟨column', index', hread⟩ := ih (text ++ w ++ Render.blanks (k + 1)) (r := r')
        (c := ⟨later, c.line, column + (k + 1), index + (k + 1)⟩) hlater.symm
        (by dsimp only; omega) hlength'
      refine ⟨column', index', ?_⟩
      rw [scan_goOn hcolumn hword rfl (by decide) hpass]
      simpa [Spacing.none, Spacing.text] using hread

end QuotedScalar

/-! ### Quoted texts -/

namespace Spot

variable {column : Nat} {tokens : List Token} {indents : List Int} {keyAllowed : Bool}

/-- The state behind a quoted text. -/
def behindQuoted (p : Spot) (single : Bool) (text : List Char) (behind : Cursor)
    (line index : Nat) : Scanner :=
  ⟨behind, .scalar (if single then .singleQuoted else .doubleQuoted) (.ofList text) :: p.tokens,
    p.indents, false, p.ownKey line index, []⟩

theorem token_quote {p : Spot} (single : Bool) {source : List Char}
    (hrest : p.rest = (if single then '\'' else '\x22') :: source) (line index : Nat) :
    (p.scanner line index).token (if single then '\'' else '\x22') source =
      (p.scanner line index).quotedScalar single := by
  cases single <;> simp [Scanner.token, Scanner.atMark_of_ne (s := p.scanner line index) hrest]

/-- A quoted text is read with the break behind it if it is read up to that break. -/
theorem leads_quoted (single : Bool) {source : List Char} (ht : Dedented n t)
    (hindent : indents.headD (-1) < column) (hlength : t.length ≤ source.length)
    (hscan : ∀ line index, ∃ line' column' index', line ≤ line' ∧
      QuotedScalar.scan single (source.length + 2) [] ⟨source, line, column + 1, index⟩ =
        some (cs, ⟨'\n' :: t, line', column', index'⟩)) :
    Leads ⟨(if single then '\'' else '\x22') :: source, column, tokens, indents, keyAllowed⟩
      ⟨t, 0, .scalar (if single then .singleQuoted else .doubleQuoted) (.ofList cs) :: tokens,
        indents, true⟩ := by
  let p : Spot := ⟨(if single then '\'' else '\x22') :: source, column, tokens, indents, keyAllowed⟩
  have hstop : stopsSkip (if single then '\'' else '\x22') = true := by cases single <;> decide
  refine leads_token rfl hstop (Int.le_of_lt hindent) (Nat.lt_succ_of_le hlength)
    fun line index hindex => ?_
  obtain ⟨m, rest, rfl, hstops, -⟩ := ht.exists_blanks
  obtain ⟨line', column', index', hline, hscan⟩ := hscan line (index + 1)
  have hquoted : (p.scanner line index).quotedScalar single = some (p.behindQuoted single cs
      ⟨'\n' :: (Render.blanks m ++ rest), line', column', index'⟩ line index) := by
    rw [Scanner.quotedScalar, saveKey_scanner hindent]
    show (QuotedScalar.scan single (source.length + 2) []
      ⟨source, line, column + 1, index + 1⟩).bind _ = _
    rw [hscan]
    rfl
  refine ⟨_, line' + 1, index' + 1, Nat.zero_le _,
    (token_quote (p := p) single rfl line index).trans hquoted, ?_⟩
  have hstale : Scanner.Stale (line' + 1) (p.ownKey line index) := fun k hk =>
    ⟨(stale_ownKey p line index k hk).1, Nat.lt_of_lt_of_le (stale_ownKey p line index k hk).2
      (Nat.succ_le_succ hline)⟩
  rw [settle_scanner hstops, Scanner.settle_break rfl hstops hstale rfl, Nat.zero_add]
  rfl

/-- **A text between single quotes is read** with the break behind it. -/
theorem leads_single (h : ScalarStyle.IsSingle cs) (ht : Dedented n t)
    (hindent : indents.headD (-1) < column) (hinside : 0 < indent) :
    Leads ⟨'\'' :: (Render.singleQuotedChars indent false cs ++ '\'' :: '\n' :: t), column, tokens,
        indents, keyAllowed⟩
      ⟨t, 0, .scalar .singleQuoted (.ofList cs) :: tokens, indents, true⟩ := by
  have hchars := QuotedScalar.length_le_singleQuotedChars indent cs false
  generalize hsource : Render.singleQuotedChars indent false cs ++ '\'' :: '\n' :: t = source
  have hlength : cs.length + t.length + 2 ≤ source.length := by
    simp only [← hsource, List.length_append, List.length_cons]
    omega
  refine leads_quoted true ht hindent (by omega) fun line index => ?_
  exact QuotedScalar.scan_single (c := ⟨source, line, column + 1, index⟩) h rfl hinside
    hsource.symm (Nat.succ_pos _) (by omega)

/-- **A text between double quotes is read** with the break behind it. -/
theorem leads_double (ht : Dedented n t) (hindent : indents.headD (-1) < column) :
    Leads ⟨'\x22' :: (cs.flatMap Render.doubleQuotedChar ++ '\x22' :: '\n' :: t), column, tokens,
        indents, keyAllowed⟩
      ⟨t, 0, .scalar .doubleQuoted (.ofList cs) :: tokens, indents, true⟩ := by
  have hchars := QuotedScalar.length_le_flatMap cs
  generalize hsource : cs.flatMap Render.doubleQuotedChar ++ '\x22' :: '\n' :: t = source
  have hlength : cs.length + t.length + 2 ≤ source.length := by
    simp only [← hsource, List.length_append, List.length_cons]
    omega
  refine leads_quoted false ht hindent (by omega) fun line index => ?_
  have hfuel : cs.length < source.length + 2 := by omega
  obtain ⟨column', index', hscan⟩ := QuotedScalar.scan_double []
    (c := ⟨source, line, column + 1, index⟩) hsource.symm (Nat.succ_pos _) hfuel
  exact ⟨line, column', index', Nat.le_refl _, hscan⟩

end Spot

end ChainMigration.Yaml
