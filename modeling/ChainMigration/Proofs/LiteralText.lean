import ChainMigration.Proofs.Scanning

/-! # Literal texts read back

A literal text is read line by line. The empty lines behind a line are kept apart from it, since the
sign decides at the end of the text what becomes of them (`BlockScalar.chomped`). -/

namespace ChainMigration.Yaml

variable {c : Cursor} {cs rest t : List Char} {i j n fuel : Nat}

namespace BlockScalar

open Render (literalLines indentationSign chompingSign)

/-! ### Signs -/

/-- The sign that stands for the chomping. -/
def Chomping.sign : Chomping → List Char
  | .strip => ['-']
  | .clip => []
  | .keep => ['+']

theorem exists_chompingSign (cs : List Char) :
    ∃ chomping : Chomping, chompingSign cs = chomping.sign := by
  rw [chompingSign]
  split
  · exact ⟨.strip, rfl⟩
  · split
    · exact ⟨.strip, rfl⟩
    · split
      · exact ⟨.keep, rfl⟩
      · split
        · exact ⟨.keep, rfl⟩
        · exact ⟨.clip, rfl⟩

theorem Chomping.sign_injective {a b : Chomping} (h : a.sign = b.sign) : a = b := by
  cases a <;> cases b <;> first | rfl | cases h

/-- **The signs are read.** -/
theorem header_signs {chomping : Chomping} (indented : Bool)
    (hrest : c.rest = (if indented then ['2'] else []) ++ chomping.sign ++ '\n' :: rest) :
    header c = some (chomping, if indented then some 2 else none,
      c.skip ((if indented then 1 else 0) + chomping.sign.length)) := by
  have hbreak : '\n'.isDigit = false := by decide
  have hminus : '-'.isDigit = false := by decide
  have hdigit : '2'.isDigit = true := by decide
  cases indented <;> cases chomping <;>
    simp [Chomping.sign] at hrest <;>
    simp [header, hrest, chomping?, indentation?, Cursor.skip, hbreak, hminus, hdigit,
      Chomping.sign]
  rw [← hrest]

/-- What a text becomes at its end: its last break and the breaks of the empty lines behind it. -/
def chomped (chomping : Chomping) (text lastBreak emptyBreaks : List Char) : List Char :=
  text ++ (if chomping = .strip then [] else lastBreak) ++
    (if chomping = .keep then emptyBreaks else [])

theorem chomped_of_not_break {chomping : Chomping} {x lastBreak : List Char} {d : Char}
    (hd : isBreak d = false) (h : chompingSign (x ++ [d]) = chomping.sign) :
    chomped chomping (x ++ [d]) lastBreak [] = x ++ [d] := by
  have hsign : chompingSign (x ++ [d]) = Chomping.strip.sign := by
    simp [chompingSign, hd, Chomping.sign]
  obtain rfl : chomping = .strip := Chomping.sign_injective (h.symm.trans hsign)
  simp [chomped]

theorem chompingSign_of_breaks {x bs : List Char} {b : Char} (hbs : ∀ e ∈ b :: bs, isBreak e = true)
    (h : x = [] ∨ bs ≠ []) : chompingSign (x ++ b :: bs) = Chomping.keep.sign := by
  obtain ⟨hb, hbs⟩ := List.forall_mem_cons.mp hbs
  obtain rfl | ⟨ds, e, rfl⟩ := List.eq_nil_or_concat bs
  · obtain rfl | h := h
    · simp [chompingSign, hb, Chomping.sign]
    · exact absurd rfl h
  · have he : isBreak e = true := hbs e (by simp)
    obtain rfl | ⟨es, f, rfl⟩ := List.eq_nil_or_concat ds
    · simp [chompingSign, hb, he, Chomping.sign]
    · simp [chompingSign, he, hbs f (by simp), Chomping.sign]

theorem chomped_of_breaks {chomping : Chomping} {x bs : List Char} {d b : Char}
    (hd : isBreak d = false) (hbs : ∀ e ∈ b :: bs, isBreak e = true)
    (h : chompingSign (x ++ [d] ++ b :: bs) = chomping.sign) :
    chomped chomping (x ++ [d]) [b] bs = x ++ [d] ++ b :: bs := by
  by_cases hnil : bs = []
  · subst hnil
    have hsign : chompingSign (x ++ [d] ++ [b]) = Chomping.clip.sign := by
      simp [chompingSign, hd, hbs b List.mem_cons_self, Chomping.sign]
    obtain rfl : chomping = .clip := Chomping.sign_injective (h.symm.trans hsign)
    simp [chomped]
  · obtain rfl : chomping = .keep :=
      Chomping.sign_injective (h.symm.trans (chompingSign_of_breaks hbs (Or.inr hnil)))
    simp [chomped]

theorem chomped_of_all_breaks {chomping : Chomping} (hbs : ∀ e ∈ cs, isBreak e = true)
    (hne : cs ≠ []) (h : chompingSign cs = chomping.sign) : chomped chomping [] [] cs = cs := by
  obtain ⟨b, bs, rfl⟩ := List.exists_cons_of_ne_nil hne
  obtain rfl : chomping = .keep := Chomping.sign_injective
    (h.symm.trans (chompingSign_of_breaks (x := []) hbs (Or.inl rfl)))
  simp [chomped]

/-! ### Empty lines -/

/-- Passing the blanks of a line up to a column stops at the text, which stands at its column. -/
def StopsAt (i j : Nat) (rest : List Char) : Prop :=
  ∀ d ∈ rest.head?, isBreak d = false ∧ d ≠ '\t' ∧ (d = ' ' → j = i)

theorem StopsAt.of_stopsSkip (ht : StopsSkip t) : StopsAt i j t := by
  intro d hd
  obtain ⟨ds, rfl⟩ := List.head?_eq_some_iff.mp hd
  obtain ⟨⟨hspace, htab⟩, -, hbreak, -⟩ := ht.head
  exact ⟨hbreak, htab, fun h => absurd h hspace⟩

/-- One line, whose blanks are passed up to the indentation if it is set, is empty or it is not. -/
theorem emptyLines_succ {k : Cursor} {given : Option Nat} {breaks : List Char} {widest : Nat}
    (hpass : c.skip (given.elim (c.rest.takeWhile (· == ' ')).length fun i =>
      min (c.rest.takeWhile (· == ' ')).length (i - c.column)) = k)
    (htab : ∀ d ∈ k.rest.head?, d ≠ '\t') :
    emptyLines given (fuel + 1) breaks widest c =
      if k.rest.head?.any isBreak then
        emptyLines given fuel (breaks ++ k.rest.take 1) (max widest k.column) k.skipBreak
      else some (breaks, max widest k.column, k) := by
  cases given <;>
  · rw [emptyLines]
    simp only [Option.elim] at hpass
    simp only [hpass]
    split
    · next heq => exact absurd rfl (htab '\t' (by rw [heq]; rfl))
    · next heq => simp [heq]
    · next heq => simp [heq]

/-- **Empty lines are passed** up to a line that is indented as given, or to one that is indented
less. -/
theorem emptyLines_breaks (breaks : List Char) (widest : Nat) {bs : List Char}
    (hbs : ∀ b ∈ bs, isBreak b = true)
    (hcolumn : c.column = 0) (hrest : c.rest = bs ++ (Render.blanks j ++ rest)) (hj : j ≤ i)
    (hstop : StopsAt i j rest)
    (hfuel : bs.length < fuel) :
    ∃ widest', emptyLines (some i) fuel breaks widest c = some (breaks ++ bs, widest',
      ⟨rest, c.line + bs.length, j, c.index + bs.length + j⟩) := by
  obtain ⟨fuel, rfl⟩ : ∃ f, fuel = f + 1 := ⟨fuel - 1, by omega⟩
  induction bs generalizing fuel breaks widest c with
  | nil =>
    have hrest : c.rest = Render.blanks j ++ rest := hrest
    have hblanks : min (c.rest.takeWhile (· == ' ')).length (i - c.column) = j := by
      rw [hrest, Render.blanks, List.takeWhile_append_of_pos (by simp), List.length_append,
        List.length_replicate, hcolumn]
      cases rest with
      | nil => simp [hj]
      | cons d ds =>
        by_cases hd : d = ' '
        · have := (hstop d rfl).2.2 hd
          omega
        · rw [List.takeWhile_cons_of_neg (by simpa using hd)]
          simp [hj]
    have hpass : c.skip j = ⟨rest, c.line, j, c.index + j⟩ := by
      simp [Cursor.skip, hrest, Render.blanks, hcolumn]
    have hbreak : rest.head?.any isBreak = false := by
      cases rest with
      | nil => rfl
      | cons d ds => exact (hstop d rfl).1
    refine ⟨max widest j, ?_⟩
    rw [emptyLines_succ (k := ⟨rest, c.line, j, c.index + j⟩) (by rw [Option.elim, hblanks, hpass])
      fun d hd => (hstop d hd).2.1]
    simp [hbreak]
  | cons b bs ih =>
    obtain ⟨hb, hbs⟩ := List.forall_mem_cons.mp hbs
    obtain ⟨fuel, rfl⟩ : ∃ f, fuel = f + 1 := ⟨fuel - 1, by rw [List.length_cons] at hfuel; omega⟩
    have hne (d : Char) (hd : isBreak d = false) : b ≠ d := by
      rintro rfl
      rw [hb] at hd
      cases hd
    have hrest : c.rest = b :: (bs ++ (Render.blanks j ++ rest)) := hrest
    have hblanks : c.rest.takeWhile (· == ' ') = [] := by
      rw [hrest, List.takeWhile_cons_of_neg (by simpa using hne ' ' (by decide))]
    have hpass : c.skip 0 = c := rfl
    obtain ⟨widest', hlater⟩ := ih (breaks ++ [b]) (max widest c.column) (c := c.skipBreak)
      hbs rfl (by simp [Cursor.skipBreak, hrest]) fuel
      (by rw [List.length_cons] at hfuel; omega)
    refine ⟨widest', ?_⟩
    rw [emptyLines_succ (k := c) (by rw [hblanks]; simp [hpass]) (by
      rw [hrest]
      rintro d ⟨⟩
      exact hne '\t' (by decide))]
    simp only [hrest, List.head?_cons, Option.any_some, hb, if_true, List.take_succ_cons,
      List.take_zero]
    rw [hlater]
    simp [Cursor.skipBreak, Nat.add_assoc, Nat.add_comm 1]

/-! ### Lines -/

theorem literalLines_append {w r : List Char} (hw : ∀ d ∈ w, isBreak d = false) :
    literalLines i false (w ++ r) = w ++ literalLines i false r := by
  induction w with
  | nil => rfl
  | cons d w ih =>
    obtain ⟨hd, hw⟩ := List.forall_mem_cons.mp hw
    simp [literalLines, hd, ih hw]

theorem literalLines_breaks {bs r : List Char} (hbs : ∀ b ∈ bs, isBreak b = true)
    (hr : ∀ d ∈ r.head?, isBreak d = false) :
    literalLines i true (bs ++ r) =
      bs ++ (Render.blanks (if r = [] then 0 else i) ++ literalLines i false r) := by
  induction bs with
  | nil =>
    cases r with
    | nil => rfl
    | cons d r => simp [literalLines, hr d rfl]
  | cons b bs ih =>
    obtain ⟨hb, hbs⟩ := List.forall_mem_cons.mp hbs
    simp [literalLines, hb, ih hbs]

theorem not_tab_of_isPrintable {d : Char} (h : isPrintable d = true) : d ≠ '\t' := by
  rintro rfl
  exact absurd h (by decide)

theorem head_literalLines {r : List Char} (hr : r ≠ []) (hhead : ∀ d ∈ r.head?, isBreak d = false) :
    (literalLines i false r ++ rest).head? = r.head? := by
  obtain ⟨d, ds, rfl⟩ := List.exists_cons_of_ne_nil hr
  have hd : isBreak d = false := hhead d rfl
  simp [literalLines, hd]

theorem stopsAt_literalLines (i : Nat) (rest : List Char) {r : List Char} (hr : r ≠ [])
    (hhead : ∀ d ∈ r.head?, isBreak d = false)
    (hprintable : ∀ d ∈ r, isPrintable d = true) :
    StopsAt i i (literalLines i false r ++ rest) := by
  intro d hd
  rw [head_literalLines hr hhead] at hd
  exact ⟨hhead d hd, not_tab_of_isPrintable (hprintable d (List.mem_of_mem_head? hd)), fun _ => rfl⟩

theorem length_le_literalLines (r : List Char) (afterBreak : Bool) :
    r.length ≤ (literalLines i afterBreak r).length := by
  induction r generalizing afterBreak with
  | nil => exact Nat.zero_le _
  | cons d r ih =>
    rw [literalLines]
    split
    · simpa using ih true
    · have hlater := ih false
      simp only [List.length_append, List.length_cons]
      omega

/-- The break that ends the lines of a text. -/
def ending (cs : List Char) : List Char := if cs.getLast?.any isBreak then [] else ['\n']

/-- **A line is read** with the empty lines behind it. -/
theorem line_eq {s : State} {w bs : List Char} {b : Char} (hw : ∀ d ∈ w, isBreak d = false)
    (hbs : ∀ e ∈ b :: bs, isBreak e = true)
    (hrest : s.cursor.rest = w ++ b :: (bs ++ (Render.blanks j ++ rest))) (hj : j ≤ i)
    (hstop : StopsAt i j rest) :
    ∃ leading line index, BlockScalar.line true i s =
      some ⟨s.text ++ s.lastBreak ++ s.emptyBreaks ++ w, [b], bs, leading,
        ⟨rest, line, j, index + j⟩⟩ := by
  obtain ⟨hb, hbs⟩ := List.forall_mem_cons.mp hbs
  have hrun : s.cursor.run (!isBreak ·) = (w, s.cursor.skip w.length) := by
    rw [Cursor.run, hrest, List.takeWhile_append_of_pos (by simpa using hw),
      List.takeWhile_cons_of_neg (by simp [hb]), List.append_nil]
  have hbehind : (s.cursor.skip w.length).rest = b :: (bs ++ (Render.blanks j ++ rest)) := by
    rw [Cursor.skip, hrest, List.drop_left]
  let c' : Cursor := (s.cursor.skip w.length).skipBreak
  have hrest' : c'.rest = bs ++ (Render.blanks j ++ rest) := by
    simp only [c', Cursor.skipBreak, hbehind, List.drop_succ_cons, List.drop_zero]
  have hskip : (s.cursor.skip w.length).skipBreak? = c' := by
    rw [Cursor.skipBreak?, hbehind]
    exact if_pos hb
  have hfuel : bs.length < (s.cursor.skip w.length).rest.length + 1 := by
    rw [hbehind, List.length_cons, List.length_append]
    omega
  obtain ⟨widest, hempty⟩ := emptyLines_breaks [] 0 (c := c') hbs rfl hrest' hj hstop hfuel
  refine ⟨s.cursor.rest.head?.any isSpace, c'.line + bs.length, c'.index + bs.length, ?_⟩
  have hbreak : ((s.cursor.skip w.length).rest.take 1).filter isBreak = [b] := by
    simp [hbehind, hb]
  simp [BlockScalar.line, hrun, hskip, hempty, hbreak]

theorem lines_succ {s : State} (hcolumn : s.cursor.column = i) (hrest : s.cursor.rest ≠ []) :
    lines true i (fuel + 1) s = (BlockScalar.line true i s).bind (lines true i fuel) :=
  if_pos ⟨hcolumn, hrest⟩

theorem lines_of_ne {s : State} (hcolumn : s.cursor.column ≠ i) : lines true i fuel s = some s := by
  cases fuel with
  | zero => rfl
  | succ fuel => exact if_neg fun h => hcolumn h.1

theorem ending_of_not_break {x : List Char} {d : Char} (hd : isBreak d = false) :
    ending (x ++ [d]) = ['\n'] := by
  simp [ending, hd]

theorem ending_of_breaks {x bs : List Char} {b : Char} (hbs : ∀ e ∈ b :: bs, isBreak e = true) :
    ending (x ++ b :: bs) = [] := by
  have hne : b :: bs ≠ [] := List.cons_ne_nil _ _
  have hlast : (x ++ b :: bs).getLast? = some ((b :: bs).getLast hne) := by
    rw [List.getLast?_append, List.getLast?_eq_some_getLast hne, Option.some_or]
  rw [ending, hlast]
  exact if_pos (hbs _ (List.getLast_mem hne))

/-- The last line is read with the empty lines behind it, up to a line that is indented less. -/
theorem lines_last (fuel : Nat) {s : State} {w bs : List Char} {b : Char} {m : Nat}
    (hw : ∀ d ∈ w, isBreak d = false) (hbs : ∀ e ∈ b :: bs, isBreak e = true)
    (hrest : s.cursor.rest = w ++ b :: (bs ++ (Render.blanks m ++ t)))
    (hcolumn : s.cursor.column = i) (hm : m < i) (ht : StopsSkip t) :
    ∃ leading line index, lines true i (fuel + 1) s =
      some ⟨s.text ++ s.lastBreak ++ s.emptyBreaks ++ w, [b], bs, leading,
        ⟨t, line, m, index + m⟩⟩ := by
  have hne : s.cursor.rest ≠ [] := by simp [hrest]
  obtain ⟨leading, line, index, hline⟩ := line_eq hw hbs hrest (Nat.le_of_lt hm) (.of_stopsSkip ht)
  refine ⟨leading, line, index, ?_⟩
  rw [lines_succ hcolumn hne, hline, Option.bind_some, lines_of_ne (Nat.ne_of_lt hm)]

/-- **Lines are read** to the end of the text. -/
theorem lines_read {chomping : Chomping} {s : State} {r : List Char} {m : Nat}
    (hsign : chompingSign cs = chomping.sign) (hprintable : ∀ d ∈ cs, isPrintable d = true)
    (hcs : cs = s.text ++ s.lastBreak ++ s.emptyBreaks ++ r) (hr : r ≠ [])
    (hhead : ∀ d ∈ r.head?, isBreak d = false) (hm : m < i) (ht : StopsSkip t)
    (hcolumn : s.cursor.column = i)
    (hrest : s.cursor.rest = literalLines i false r ++ (ending cs ++ (Render.blanks m ++ t)))
    (hfuel : r.length < fuel) :
    ∃ s' line index, lines true i fuel s = some s' ∧ s'.cursor = ⟨t, line, m, index + m⟩ ∧
      chomped chomping s'.text s'.lastBreak s'.emptyBreaks = cs := by
  induction fuel generalizing s r with
  | zero => omega
  | succ fuel ih =>
    obtain ⟨w, r', rfl, hw, hr'⟩ := exists_span (!isBreak ·) r
    have hw : ∀ d ∈ w, isBreak d = false := fun d hd => by simpa using hw d hd
    obtain rfl | ⟨x, d, rfl⟩ := List.eq_nil_or_concat w
    · obtain ⟨d, ds, rfl⟩ := List.exists_cons_of_ne_nil hr
      simp [hhead d rfl] at hr'
    have hd : isBreak d = false := hw d (by simp)
    rw [literalLines_append hw, List.append_assoc] at hrest
    have hne : s.cursor.rest ≠ [] := by simp [hrest]
    cases r' with
    | nil =>
      -- The text ends without a break, and one is written behind it.
      have hsplit : cs = (s.text ++ s.lastBreak ++ s.emptyBreaks ++ x) ++ [d] := by simpa using hcs
      have hnewline : ∀ e ∈ ['\n'], isBreak e = true := List.forall_mem_singleton.mpr (by decide)
      rw [hsplit, ending_of_not_break hd] at hrest
      obtain ⟨leading, line, index, hread⟩ := lines_last fuel hw hnewline hrest hcolumn hm
        ht
      refine ⟨_, line, index, hread, rfl, ?_⟩
      rw [hsplit] at hsign ⊢
      simpa using chomped_of_not_break hd hsign
    | cons b r' =>
      have hb : isBreak b = true := by simpa using hr' b rfl
      obtain ⟨bs, r', rfl, hbs, hr'⟩ := exists_span isBreak r'
      have hbbs : ∀ e ∈ b :: bs, isBreak e = true := List.forall_mem_cons.mpr ⟨hb, hbs⟩
      have hlines : literalLines i false (b :: (bs ++ r')) =
          b :: literalLines i true (bs ++ r') := by simp [literalLines, hb]
      rw [hlines, literalLines_breaks hbs hr'] at hrest
      simp only [List.cons_append, List.append_assoc] at hrest
      by_cases hnil : r' = []
      · -- The text ends in breaks.
        subst hnil
        have hsplit : cs = (s.text ++ s.lastBreak ++ s.emptyBreaks ++ x) ++ [d] ++ b :: bs := by
          simpa using hcs
        rw [hsplit, ending_of_breaks hbbs] at hrest
        obtain ⟨leading, line, index, hread⟩ := lines_last fuel hw hbbs
          (by simpa [Render.blanks, literalLines] using hrest) hcolumn hm ht
        refine ⟨_, line, index, hread, rfl, ?_⟩
        rw [hsplit] at hsign ⊢
        simpa using chomped_of_breaks hd hbbs hsign
      · -- A further line follows.
        rw [if_neg hnil] at hrest
        have hmem : ∀ e ∈ r', e ∈ cs := fun e he => hcs ▸ by simp [he]
        have hstop := stopsAt_literalLines i (ending cs ++ (Render.blanks m ++ t)) hnil hr'
          fun e he => hprintable e (hmem e he)
        obtain ⟨leading, line, index, hline⟩ := line_eq hw hbbs (by simpa using hrest)
          (Nat.le_refl i) hstop
        rw [lines_succ hcolumn hne, hline, Option.bind_some]
        exact ih (by rw [hcs]; simp) hnil hr' rfl rfl (by simp at hfuel; omega)

/-! ### The text -/

/-- The first line tells the indentation if no sign does. -/
theorem emptyLines_first {bs : List Char} (indented : Bool) (hbs : ∀ b ∈ bs, isBreak b = true)
    (hcolumn : c.column = 0) (hrest : c.rest = bs ++ (Render.blanks j ++ rest)) (hj : j ≤ n + 2)
    (hstop : StopsAt (n + 2) j rest)
    (hfirst : indented = false → bs = [] ∧ j = n + 2 ∧ ∀ d ∈ rest.head?, d ≠ ' ')
    (hfuel : bs.length < fuel) :
    ∃ widest line index,
      emptyLines (if indented then some (n + 2) else none) fuel [] 0 c =
        some (bs, widest, ⟨rest, line, j, index + j⟩) ∧
      (if indented then some (n + 2) else none).getD (max widest (max ((n : Int) + 1) 1).toNat) =
        n + 2 := by
  cases indented with
  | true =>
    obtain ⟨widest, hempty⟩ := emptyLines_breaks [] 0 hbs hcolumn hrest hj hstop hfuel
    exact ⟨widest, _, _, hempty, rfl⟩
  | false =>
    obtain ⟨rfl, rfl, hspace⟩ := hfirst rfl
    have hrest : c.rest = Render.blanks (n + 2) ++ rest := hrest
    obtain ⟨fuel, rfl⟩ : ∃ f, fuel = f + 1 := ⟨fuel - 1, by omega⟩
    refine ⟨n + 2, c.line, c.index, ?_, ?_⟩
    · have hblanks : (c.rest.takeWhile (· == ' ')).length = n + 2 := by
        rw [hrest, Render.blanks, List.takeWhile_append_of_pos (by simp), List.length_append,
          List.length_replicate]
        cases rest with
        | nil => rfl
        | cons d ds => rw [List.takeWhile_cons_of_neg (by simpa using hspace d rfl)]; rfl
      have hskip : c.skip (n + 2) = ⟨rest, c.line, n + 2, c.index + (n + 2)⟩ := by
        simp [Cursor.skip, hrest, Render.blanks, hcolumn]
      have hbreak : rest.head?.any isBreak = false := by
        cases rest with
        | nil => rfl
        | cons d ds => exact (hstop d rfl).1
      rw [if_neg Bool.false_ne_true, emptyLines_succ (k := ⟨rest, c.line, n + 2, c.index + (n + 2)⟩)
        (by rw [Option.elim, hblanks, hskip]) fun d hd => (hstop d hd).2.1]
      simp [hbreak]
    · show max (n + 2) (max ((n : Int) + 1) 1).toNat = n + 2
      omega

theorem indentationSign_eq (cs : List Char) : indentationSign cs =
    if cs.head?.any (fun d => d == ' ' || isBreak d) then ['2'] else [] := by
  cases cs with
  | nil => rfl
  | cons d ds => rfl

theorem scan_eq (indented : Bool) {k : Nat} {chomping : Chomping} {source bs : List Char}
    {widest : Nat} {c' : Cursor} {s : State}
    (hheader : header c = some (chomping, if indented then some 2 else none, c.skip k))
    (hrest : (c.skip k).rest = '\n' :: source)
    (hempty : emptyLines (if indented then some (n + 2) else none) (source.length + 1) [] 0
      ⟨source, c.line + 1, 0, c.index + k + 1⟩ = some (bs, widest, c'))
    (hindent : (if indented then some (n + 2) else none).getD
      (max widest (max ((n : Int) + 1) 1).toNat) = n + 2)
    (hlines : lines true (n + 2) (c'.rest.length + 1) ⟨[], [], bs, false, c'⟩ = some s) :
    scan true (n : Int) c = some (chomped chomping s.text s.lastBreak s.emptyBreaks, s.cursor) := by
  have hskip : (c.skip k).skipRun isSpace = c.skip k := by
    rw [Cursor.skipRun_nil hrest (by rintro d ⟨⟩; decide), ← hrest]
  have hcomment : (c.skip k).skipComment = c.skip k := by
    rw [Cursor.skipComment, hrest]
    rfl
  have hbreak : (c.skip k).skipBreak? = ⟨source, c.line + 1, 0, c.index + k + 1⟩ := by
    have hnewline : isBreak '\n' = true := by decide
    simp only [Cursor.skipBreak?, hrest, hnewline, if_true, Cursor.skipBreak]
    rfl
  have hends : endsLine (c.skip k).rest = true := by
    rw [hrest]
    rfl
  have hgiven : (if indented then some 2 else none).map (fun i => (max (n : Int) 0).toNat + i) =
      if indented then some (n + 2) else none := by
    cases indented
    · rfl
    · show some ((max (n : Int) 0).toNat + 2) = some (n + 2)
      rw [Option.some.injEq]
      omega
  rw [scan, hheader]
  simp only [Option.bind_eq_bind, Option.bind_some, hskip, hcomment, hends, Bool.not_true,
    Bool.false_eq_true, if_false, hbreak, hgiven, hempty, hindent, hlines]
  rfl

section

variable {m k : Nat} {chomping : Chomping} {source : List Char}

theorem scan_of_breaks (hheader : header c = some (chomping, some 2, c.skip k))
    (hbehind : (c.skip k).rest = '\n' :: source) (hsign : chompingSign cs = chomping.sign)
    (hbs : ∀ b ∈ cs, isBreak b = true) (hne : cs ≠ [])
    (hsource : source = cs ++ (Render.blanks m ++ t)) (hm : m ≤ n) (ht : StopsSkip t) :
    ∃ line index, scan true (n : Int) c = some (cs, ⟨t, line, m, index + m⟩) := by
  have hfuel : cs.length < source.length + 1 := by
    rw [hsource, List.length_append]
    omega
  obtain ⟨widest, line, index, hempty, hindent⟩ := emptyLines_first
    (c := ⟨source, c.line + 1, 0, c.index + k + 1⟩) true hbs rfl hsource
    (Nat.le_trans hm (Nat.le_add_right n 2)) (.of_stopsSkip ht) nofun hfuel
  refine ⟨line, index, ?_⟩
  rw [scan_eq true hheader hbehind hempty hindent
    (lines_of_ne (by dsimp only; omega)), chomped_of_all_breaks hbs hne hsign]

theorem scan_of_lines {indented : Bool} {bs r : List Char}
    (hheader : header c = some (chomping, if indented then some 2 else none, c.skip k))
    (hbehind : (c.skip k).rest = '\n' :: source) (hsign : chompingSign (bs ++ r) = chomping.sign)
    (hindented : (bs ++ r).head?.any (fun d => d == ' ' || isBreak d) = indented)
    (hprintable : ∀ d ∈ bs ++ r, isPrintable d = true) (hbs : ∀ b ∈ bs, isBreak b = true)
    (hr : r ≠ []) (hhead : ∀ d ∈ r.head?, isBreak d = false)
    (hsource : source = bs ++ (Render.blanks (n + 2) ++
      (literalLines (n + 2) false r ++ (ending (bs ++ r) ++ (Render.blanks m ++ t)))))
    (hm : m ≤ n) (ht : StopsSkip t) :
    ∃ line index, scan true (n : Int) c = some (bs ++ r, ⟨t, line, m, index + m⟩) := by
  generalize hlater :
    literalLines (n + 2) false r ++ (ending (bs ++ r) ++ (Render.blanks m ++ t)) = later at hsource
  have hstop : StopsAt (n + 2) (n + 2) later :=
    hlater ▸ stopsAt_literalLines _ _ hr hhead fun d hd => hprintable d (List.mem_append_right _ hd)
  have hfirst (h : indented = false) : bs = [] ∧ n + 2 = n + 2 ∧ ∀ d ∈ later.head?, d ≠ ' ' := by
    rw [← hlater, head_literalLines hr hhead]
    cases bs with
    | cons b bs => simp [← hindented, hbs b List.mem_cons_self] at h
    | nil =>
      obtain ⟨d, ds, rfl⟩ := List.exists_cons_of_ne_nil hr
      have hd : d ≠ ' ' ∧ isBreak d = false := by simpa [← hindented] using h
      exact ⟨rfl, rfl, by rintro e ⟨⟩; exact hd.1⟩
  have hfuel : bs.length < source.length + 1 := by
    rw [hsource, List.length_append]
    omega
  have hfuel' : r.length < later.length + 1 := by
    have := @length_le_literalLines (n + 2) r false
    rw [← hlater, List.length_append]
    omega
  obtain ⟨widest, line, index, hempty, hindent⟩ := emptyLines_first
    (c := ⟨source, c.line + 1, 0, c.index + k + 1⟩) indented hbs rfl hsource (Nat.le_refl _) hstop
    hfirst hfuel
  obtain ⟨s, line', index', hread, hcursor, hchomped⟩ := lines_read (i := n + 2)
    (s := ⟨[], [], bs, false, ⟨later, line, n + 2, index + (n + 2)⟩⟩) hsign hprintable rfl hr hhead
    (Nat.lt_of_le_of_lt hm (by omega)) ht rfl hlater.symm hfuel'
  refine ⟨line', index', ?_⟩
  rw [scan_eq indented hheader hbehind hempty hindent hread, hchomped, hcursor]

end

/-- **A literal text is read** with the break behind it. -/
theorem scan_literal {m : Nat} (hprintable : ∀ d ∈ cs, isPrintable d = true) (hne : cs ≠ [])
    (hrest : c.rest = indentationSign cs ++ chompingSign cs ++
      '\n' :: (literalLines (n + 2) true cs ++ (ending cs ++ (Render.blanks m ++ t))))
    (hm : m ≤ n) (ht : StopsSkip t) :
    ∃ line index, scan true (n : Int) c = some (cs, ⟨t, line, m, index + m⟩) := by
  obtain ⟨chomping, hsign⟩ := exists_chompingSign cs
  generalize hindented : cs.head?.any (fun d => d == ' ' || isBreak d) = indented
  rw [hsign, indentationSign_eq, hindented] at hrest
  have hheader := header_signs indented hrest
  have hbehind : (c.skip ((if indented then 1 else 0) + chomping.sign.length)).rest =
      '\n' :: (literalLines (n + 2) true cs ++ (ending cs ++ (Render.blanks m ++ t))) := by
    have hlength : ((if indented then ['2'] else []) ++ chomping.sign).length =
        (if indented then 1 else 0) + chomping.sign.length := by
      cases indented <;> simp [Nat.add_comm]
    rw [Cursor.skip, hrest, ← hlength, List.drop_left]
  obtain ⟨bs, r, rfl, hbs, hr⟩ := exists_span isBreak cs
  rw [literalLines_breaks hbs hr] at hbehind
  by_cases hnil : r = []
  · subst hnil
    rw [List.append_nil] at hne hsign hindented hbehind ⊢
    obtain ⟨b, bs, rfl⟩ := List.exists_cons_of_ne_nil hne
    have hset : indented = true := by simp [← hindented, hbs b List.mem_cons_self]
    subst hset
    have hending : ending (b :: bs) = [] := ending_of_breaks (x := []) hbs
    exact scan_of_breaks hheader hbehind hsign hbs hne
      (by simp [hending, Render.blanks, literalLines]) hm ht
  · rw [if_neg hnil] at hbehind
    exact scan_of_lines hheader hbehind hsign hindented hprintable hbs hnil hr (by simp) hm ht

end BlockScalar

/-! ### Literal texts -/

namespace Spot

variable {column : Nat} {tokens : List Token} {indents : List Int} {keyAllowed : Bool}

/-- The state behind a literal text. -/
def behindLiteral (p : Spot) (text : List Char) (behind : Cursor) : Scanner :=
  ⟨behind, .scalar .literal (.ofList text) :: p.tokens, p.indents, true, none, []⟩

/-- **A literal text is read** with its lines. -/
theorem leads_literal (hprintable : ∀ d ∈ cs, isPrintable d = true) (hne : cs ≠ [])
    (ht : Dedented n t) (hindent : indents.headD (-1) = n) (hcolumn : n < column) :
    Leads ⟨Render.literal (n + 2) cs ++ t, column, tokens, indents, keyAllowed⟩
      ⟨t, 0, .scalar .literal (.ofList cs) :: tokens, indents, true⟩ := by
  obtain ⟨m, rest, rfl, hstops, hm⟩ := ht.exists_blanks
  generalize hsource : Render.indentationSign cs ++ Render.chompingSign cs ++
    '\n' :: (Render.literalLines (n + 2) true cs ++
      (BlockScalar.ending cs ++ (Render.blanks m ++ rest))) = source
  have hrest : Render.literal (n + 2) cs ++ (Render.blanks m ++ rest) = '|' :: source := by
    rw [← hsource, Render.literal, ← BlockScalar.ending]
    simp
  rw [hrest]
  have hlength : (Render.blanks m ++ rest).length ≤ source.length := by
    simp only [← hsource, List.length_append, List.length_cons]
    omega
  refine leads_token rfl (by decide) (by dsimp only; omega) (Nat.lt_succ_of_le hlength)
    fun line index hindex => ?_
  let p : Spot := ⟨'|' :: source, column, tokens, indents, keyAllowed⟩
  have htoken : (p.scanner line index).token '|' source =
      (p.scanner line index).blockScalar true := by
    have hflow : (p.scanner line index).inFlow = false := rfl
    simp [Scanner.token, Scanner.atMark_of_ne (s := p.scanner line index) rfl, hflow]
  obtain ⟨line', index', hscan⟩ := BlockScalar.scan_literal (n := n)
    (c := ⟨source, line, column + 1, index + 1⟩) hprintable hne hsource.symm hm hstops
  have hliteral : (p.scanner line index).blockScalar true =
      some (p.behindLiteral cs ⟨rest, line', m, index' + m⟩) := by
    rw [Scanner.blockScalar, Scanner.dropKey_of_none rfl]
    show (BlockScalar.scan true (indents.headD (-1))
      ⟨source, line, column + 1, index + 1⟩).bind _ = _
    rw [hindent, hscan]
    rfl
  refine ⟨_, line', index', Nat.zero_le _, htoken.trans hliteral, ?_⟩
  rw [settle_scanner hstops,
    Scanner.settle_blanks (m := 0) rfl hstops (Scanner.stale_none _) rfl, Nat.zero_add]
  rfl

end Spot

end ChainMigration.Yaml
