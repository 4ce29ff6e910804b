import ChainMigration.Proofs.Scanning
import ChainMigration.Proofs.WrittenNodes
import Mathlib.Data.List.Basic

/-! # Plain texts read back

A plain text is read word by word: what is forbidden inside of it is what would end it, a colon
before a blank and a number sign after one. Names are read as keys in the same way. -/

namespace ChainMigration.Yaml

variable {c : Cursor} {cs w rest tail t : List Char} {k m n fuel : Nat} {indent : Int}

/-! ### Spacing -/

namespace Spacing

variable {s : Spacing}

theorem scan_blanks (indent : Int) (hrest : c.rest = Render.blanks k ++ rest)
    (hstop : ∀ d ∈ rest.head?, isSpaceOrBreak d = false) (hfuel : k ≤ fuel) :
    scan indent fuel s c =
      some (if s.broken then s else { s with blanks := s.blanks ++ Render.blanks k },
        ⟨rest, c.line, c.column + k, c.index + k⟩) := by
  induction k generalizing fuel s c with
  | zero =>
    have hrest : c.rest = rest := hrest
    have hsame : scan indent fuel s c = some (s, c) := by
      cases fuel with
      | zero => rfl
      | succ fuel =>
        rw [scan, hrest]
        cases rest with
        | nil => rfl
        | cons d ds =>
          have hd := hstop d rfl
          rw [isSpaceOrBreak, Bool.or_eq_false_iff] at hd
          simp [hd.1, hd.2]
    rw [hsame, ← hrest]
    simp [Render.blanks]
  | succ k ih =>
    obtain ⟨fuel, rfl⟩ : ∃ f, fuel = f + 1 := ⟨fuel - 1, by omega⟩
    have hrest : c.rest = ' ' :: (Render.blanks k ++ rest) := hrest
    have hnext : (c.skip 1).rest = Render.blanks k ++ rest := by simp [Cursor.skip, hrest]
    have hbreak : isBreak ' ' = false := by decide
    have hspace : isSpace ' ' = true := by decide
    have hcolumn : (c.skip 1).column + k = c.column + (k + 1) := by simp [Cursor.skip]; omega
    have hindex : (c.skip 1).index + k = c.index + (k + 1) := by simp [Cursor.skip]; omega
    have hfuel : k ≤ fuel := by omega
    rw [scan, hrest]
    by_cases hbroken : s.broken = true
    · have hlater := ih (s := s) hnext hfuel
      simp only [hbreak, hspace, hbroken, if_true] at hlater ⊢
      simp [hlater, hcolumn, hindex]
      rfl
    · have hlater := ih (s := { s with blanks := s.blanks ++ [' '] }) hnext hfuel
      simp only [hbreak, hspace, hbroken] at hlater ⊢
      simp [hlater, hcolumn, hindex, Render.blanks, List.replicate_succ]
      rfl

theorem scan_break {b : Char} (hrest : c.rest = b :: rest) (hb : isBreak b = true) :
    scan indent (fuel + 1) s c =
      scan indent fuel (s.addBreak b) ⟨rest, c.line + 1, 0, c.index + 1⟩ := by
  rw [scan, hrest]
  simp [hb, Cursor.skipBreak, hrest]

end Spacing

/-! ### Words -/

/-- **A word is read** up to what ends it: no colon in it stands before a blank. -/
theorem PlainScalar.word_append (hw : ∀ d ∈ w, isSpaceOrBreak d = false)
    (hcolon : ∀ front back, w = front ++ ':' :: back → endsWord (back ++ tail) = false)
    (htail : ∀ d ds, tail = d :: ds → isSpaceOrBreak d = true ∨ d = ':' ∧ endsWord ds = true) :
    word false (w ++ tail) = some (w, tail) := by
  induction w with
  | nil =>
    cases tail with
    | nil => rfl
    | cons d ds =>
      rw [List.nil_append, word]
      obtain hspace | ⟨rfl, hend⟩ := htail d ds rfl
      · simp [hspace]
      · simp [hend]
  | cons d w ih =>
    obtain ⟨hd, hw⟩ := List.forall_mem_cons.mp hw
    have hlater := ih hw fun front back h => hcolon (d :: front) back (by rw [h, List.cons_append])
    have hends : d = ':' → endsWord (w ++ tail) = false := fun hd => hcolon [] w (by rw [hd]; rfl)
    rw [List.cons_append, word]
    simp only [hd, Bool.false_eq_true, if_false, Bool.false_and, Bool.or_false, hlater]
    by_cases hc : d = ':'
    · simp [hc, hends hc]
    · simp [hc]

namespace ScalarStyle

/-- What a plain text is made of. -/
structure IsPlain (cs : List Char) : Prop where
  ne_nil : cs ≠ []
  printable : ∀ c ∈ cs, isPrintable c = true
  unbroken : ∀ c ∈ cs, isBreak c = false
  head : ∀ c rest, cs = c :: rest → isLeadingIndicator c rest = false ∧ c ≠ ' '
  last : cs.getLast? ≠ some ' '
  colon : ∀ front back, cs = front ++ ':' :: back → endsWord back = false
  comment : ∀ front c back, cs = front ++ c :: '#' :: back → isSpaceOrBreak c = false

theorem isLeadingIndicator_of_kind (p : Char → Bool) {c : Char} {rest : List Char}
    (hp : "?:-#,[]\x7b\x7d&*!|>\x27\x22%@\x60".toList.any p = false) (hc : p c = true) :
    isLeadingIndicator c rest = false := by
  have hne {x : Char} (hx : x ∈ "?:-#,[]\x7b\x7d&*!|>\x27\x22%@\x60".toList) : c ≠ x := by
    rintro rfl
    exact List.any_eq_false.mp hp c hx hc
  have hsigns : "#,[]\x7b\x7d&*!|>\x27\x22%@\x60".toList.contains c = false := by
    rw [Bool.eq_false_iff, ne_eq, List.contains_iff_mem]
    exact fun hmem => hne (List.mem_cons_of_mem _ (List.mem_cons_of_mem _
      (List.mem_cons_of_mem _ hmem))) rfl
  rw [isLeadingIndicator, hsigns]
  simp [hne (x := '?') (by decide), hne (x := ':') (by decide), hne (x := '-') (by decide)]

theorem hasInnerIndicator_eq_false {before : Char} (h : hasInnerIndicator before cs = false) :
    (∀ front back, cs = front ++ ':' :: back → endsWord back = false) ∧
      ∀ front c back, before :: cs = front ++ c :: '#' :: back → isSpaceOrBreak c = false := by
  induction cs generalizing before with
  | nil =>
    refine ⟨fun front back h => by simp at h, fun front c back h => ?_⟩
    have := congrArg List.length h
    simp at this
    omega
  | cons d ds ih =>
    simp only [hasInnerIndicator, Bool.or_eq_false_iff] at h
    obtain ⟨⟨hcolon, hcomment⟩, hlater⟩ := h
    obtain ⟨hcolons, hcomments⟩ := ih hlater
    constructor
    · intro front back h
      cases front with
      | nil =>
        cases h
        simpa using hcolon
      | cons e front => exact hcolons front back (List.cons.inj h).2
    · intro front c back h
      cases front with
      | nil =>
        cases h
        simpa using hcomment
      | cons e front => exact hcomments front c back (List.cons.inj h).2

theorem isPlain_of_allowsPlain (hne : cs ≠ []) (h : allowsPlain cs = true) : IsPlain cs := by
  obtain ⟨c, rest, rfl⟩ := List.exists_cons_of_ne_nil hne
  simp only [allowsPlain, Bool.not_eq_true', Bool.or_eq_false_iff] at h
  obtain ⟨⟨⟨⟨⟨hmark, hleading⟩, hinner⟩, hspecial⟩, hblank⟩, hbreak⟩ := h
  obtain ⟨hcolon, hcomment⟩ := hasInnerIndicator_eq_false hinner
  simp only [hasSpecial, List.any_eq_false, Bool.not_eq_true', Bool.not_eq_false] at hspecial
  simp only [hasOuterBlank, Bool.or_eq_false_iff, List.head?_cons, Option.any_some,
    beq_eq_false_iff_ne] at hblank
  obtain ⟨⟨hspace, -⟩, hlast⟩ := hblank
  refine ⟨hne, hspecial, by simpa using hbreak, ?_, ?_, ?_, hcomment⟩
  · rintro d ds ⟨⟩
    exact ⟨hleading, hspace⟩
  · intro hsome
    rw [hsome] at hlast
    simp at hlast
  · intro front back h
    cases front with
    | nil =>
      cases h
      simp only [isLeadingIndicator, Bool.or_eq_false_iff] at hleading
      simpa using hleading.2
    | cons e front => exact hcolon front back (List.cons.inj h).2

theorem IsPlain.eq_space (h : IsPlain cs) {d : Char} (hd : d ∈ cs)
    (hspace : isSpaceOrBreak d = true) :
    d = ' ' := by
  have hprintable := h.printable d hd
  rw [isSpaceOrBreak, h.unbroken d hd, Bool.or_false, isSpace, Bool.or_eq_true, beq_iff_eq,
    beq_iff_eq] at hspace
  obtain rfl | rfl := hspace
  · rfl
  · exact absurd hprintable (by decide)

/-- **From any word on** a plain text is the word and, unless it ends there, blanks and the next
word, which does not begin a comment. -/
theorem IsPlain.exists_word (h : IsPlain cs) {front r : List Char} (hcs : cs = front ++ r)
    (hr : r ≠ []) (hhead : ∀ d ∈ r.head?, isSpaceOrBreak d = false) :
    ∃ w k r', r = w ++ (Render.blanks k ++ r') ∧ w ≠ [] ∧ (∀ d ∈ w, isSpaceOrBreak d = false) ∧
      (r' = [] ∧ k = 0 ∨ r' ≠ [] ∧ 0 < k ∧
        ∀ d ∈ r'.head?, isSpaceOrBreak d = false ∧ d ≠ '#') := by
  obtain ⟨w, back, rfl, hw, hback⟩ := exists_span (fun d => !isSpaceOrBreak d) r
  obtain ⟨spaces, r', rfl, hspaces, hr'⟩ := exists_span (· == ' ') back
  obtain ⟨k, rfl⟩ : ∃ k, spaces = Render.blanks k :=
    ⟨spaces.length, List.eq_replicate_iff.mpr ⟨rfl, fun d hd => by simpa using hspaces d hd⟩⟩
  have hmem (d : Char) (hd : d ∈ w ++ (Render.blanks k ++ r')) : d ∈ cs :=
    hcs ▸ List.mem_append_right _ hd
  refine ⟨w, k, r', rfl, ?_, fun d hd => by simpa using hw d hd, ?_⟩
  · rintro rfl
    obtain ⟨d, ds, hd⟩ := List.exists_cons_of_ne_nil hr
    rw [List.nil_append] at hd hhead
    rw [hd] at hback hhead
    have := hback d rfl
    simp [hhead d rfl] at this
  · cases hcase : r' with
    | nil =>
      refine Or.inl ⟨rfl, ?_⟩
      cases k with
      | zero => rfl
      | succ k =>
        refine absurd ?_ h.last
        rw [hcs, hcase, List.append_nil, Render.blanks, List.replicate_succ', ← List.append_assoc,
          ← List.append_assoc, List.getLast?_concat]
    | cons d ds =>
      have hd : d ≠ ' ' := by simpa [hcase] using hr'
      have hspace : isSpaceOrBreak d = false := by
        rw [Bool.eq_false_iff]
        exact fun hspace => hd (h.eq_space (hmem d (by simp [hcase])) hspace)
      have hk : 0 < k := by
        refine Nat.pos_of_ne_zero fun hzero => ?_
        rw [hzero, hcase] at hback
        have := hback d rfl
        simp [hspace] at this
      refine Or.inr ⟨List.cons_ne_nil _ _, hk, ?_⟩
      rintro e ⟨⟩
      refine ⟨hspace, ?_⟩
      rintro rfl
      have hcomment := h.comment (front ++ w ++ Render.blanks (k - 1)) ' ' ds (by
        rw [hcs, hcase, show k = k - 1 + 1 by omega, Render.blanks, List.replicate_succ']
        simp [Render.blanks])
      exact absurd hcomment (by decide)

end ScalarStyle

/-! ### Plain texts -/

namespace PlainScalar

open ScalarStyle (IsPlain)

theorem endsWord_append {xs : List Char} (ys : List Char) (h : endsWord xs = false) :
    endsWord (xs ++ ys) = false := by
  cases xs with
  | nil => cases h
  | cons x xs => exact h

/-- A word of a plain text is read, whatever line follows the text. -/
theorem word_of_isPlain (hplain : IsPlain cs) {front back : List Char}
    (hcs : cs = front ++ w ++ back) (hw : ∀ d ∈ w, isSpaceOrBreak d = false)
    (htail : (back ++ '\n' :: t).head?.any isSpaceOrBreak = true) :
    word false (w ++ (back ++ '\n' :: t)) = some (w, back ++ '\n' :: t) := by
  refine word_append hw (fun before after h => ?_) fun d ds h => Or.inl (by simpa [h] using htail)
  have hcolon := hplain.colon (front ++ before) (after ++ back) (by rw [hcs, h]; simp)
  simpa using endsWord_append ('\n' :: t) hcolon

/-- **One word is read** with the blanks and breaks behind it. The text ends with it if the line
that follows is indented less. -/
theorem scan_succ {spacing passed : Spacing} {text : List Char} {c' : Cursor}
    (hcolumn : 0 < c.column) (hcomment : c.rest.head? ≠ some '#')
    (hword : word false c.rest = some (w, tail)) (hne : w ≠ [])
    (htail : tail.head?.any isSpaceOrBreak = true)
    (hpass : Spacing.scan indent (c.skip w.length).rest.length .none (c.skip w.length) =
      some (passed, c')) :
    scan false indent (fuel + 1) text spacing c =
      if (c'.column : Int) < indent then some ⟨text ++ spacing.text ++ w, passed.broken, c'⟩
      else scan false indent fuel (text ++ spacing.text ++ w) passed c' := by
  rw [scan, Cursor.atDocumentMark_of_pos hcolumn]
  simp [hcomment, hword, hne, htail, hpass]

theorem pass_break (hrest : c.rest = '\n' :: (Render.blanks m ++ rest)) (hstops : StopsSkip rest) :
    Spacing.scan indent c.rest.length .none c =
      some (⟨[], true, ['\n'], []⟩, ⟨rest, c.line + 1, m, c.index + 1 + m⟩) := by
  rw [hrest, List.length_cons, Spacing.scan_break hrest rfl,
    Spacing.scan_blanks _ rfl hstops.word (by simp [Render.blanks])]
  simp [Spacing.addBreak, Spacing.none]

/-- **The words from one on are read** to the end of the text, with the break behind it. -/
theorem scan_words {spacing : Spacing} {text r : List Char} (hplain : IsPlain cs)
    (hstops : StopsSkip rest) (hm : (m : Int) < indent)
    (hcs : cs = text ++ spacing.text ++ r) (hr : r ≠ [])
    (hhead : ∀ d ∈ r.head?, isSpaceOrBreak d = false ∧ d ≠ '#')
    (hrest : c.rest = r ++ '\n' :: (Render.blanks m ++ rest)) (hcolumn : 0 < c.column)
    (hindent : indent ≤ c.column) (hfuel : r.length < fuel) :
    scan false indent fuel text spacing c =
      some ⟨cs, true, ⟨rest, c.line + 1, m, c.index + r.length + 1 + m⟩⟩ := by
  induction fuel generalizing spacing text r c with
  | zero => omega
  | succ fuel ih =>
    obtain ⟨w, k, r', rfl, hne, hw, hr'⟩ := hplain.exists_word hcs hr fun d hd => (hhead d hd).1
    have hrest : c.rest = w ++ ((Render.blanks k ++ r') ++ '\n' :: (Render.blanks m ++ rest)) := by
      rw [hrest, List.append_assoc]
    have hcomment : c.rest.head? ≠ some '#' := by
      obtain ⟨d, ds, rfl⟩ := List.exists_cons_of_ne_nil hne
      rw [hrest]
      simpa using (hhead d rfl).2
    have hsplit : cs = text ++ spacing.text ++ w ++ (Render.blanks k ++ r') := by
      simpa using hcs
    have hskip : (c.skip w.length).rest =
        (Render.blanks k ++ r') ++ '\n' :: (Render.blanks m ++ rest) := by
      rw [Cursor.skip, hrest, List.drop_left]
    obtain ⟨rfl, rfl⟩ | ⟨hlater, hk, hnext⟩ := hr'
    · -- The text ends here: the break behind it leads to a line that is indented less.
      have hword := word_of_isPlain hplain hsplit hw (t := Render.blanks m ++ rest) rfl
      rw [← hrest] at hword
      rw [scan_succ hcolumn hcomment hword hne rfl (pass_break hskip hstops), if_pos hm, hsplit]
      simp [Cursor.skip, Render.blanks]
    · -- The next word follows after blanks.
      have htail : ((Render.blanks k ++ r') ++ '\n' :: (Render.blanks m ++ rest)).head?.any
          isSpaceOrBreak = true := by
        obtain ⟨k, rfl⟩ : ∃ j, k = j + 1 := ⟨k - 1, by omega⟩
        rfl
      have hword := word_of_isPlain hplain hsplit hw htail
      rw [← hrest] at hword
      have hstop : ∀ d ∈ (r' ++ '\n' :: (Render.blanks m ++ rest)).head?,
          isSpaceOrBreak d = false := by
        intro d hd
        rw [List.head?_append_of_ne_nil _ hlater] at hd
        exact (hnext d hd).1
      have hfuel' : k ≤ (c.skip w.length).rest.length := by simp [hskip, Render.blanks]
      have hpass := Spacing.scan_blanks (s := .none) indent
        (hskip.trans (List.append_assoc _ _ _)) hstop hfuel'
      have hcs : cs =
          text ++ spacing.text ++ w ++ (Spacing.mk (Render.blanks k) false [] []).text ++ r' := by
        rw [hcs]
        simp [Spacing.text]
      have hlength : (w ++ (Render.blanks k ++ r')).length = w.length + k + r'.length := by
        simp [Render.blanks]
        omega
      have hread := ih (c := ⟨r' ++ '\n' :: (Render.blanks m ++ rest), c.line,
        c.column + w.length + k, c.index + w.length + k⟩) hcs hlater hnext rfl
        (by dsimp only; omega) (by dsimp only; omega) (by omega)
      rw [scan_succ hcolumn hcomment hword hne htail hpass, if_neg (by simp [Cursor.skip]; omega)]
      refine hread.trans ?_
      rw [hlength, ← Nat.add_assoc c.index, ← Nat.add_assoc c.index]

end PlainScalar

/-! ### Plain tokens -/

open ScalarStyle (isLeadingIndicator isLeadingIndicator_of_kind IsPlain)

theorem isLeadingIndicator_append {d : Char} {xs ys : List Char}
    (h : isLeadingIndicator d xs = false) :
    isLeadingIndicator d (xs ++ ys) = false := by
  simp only [isLeadingIndicator, Bool.or_eq_false_iff, Bool.and_eq_false_iff] at h ⊢
  exact ⟨h.1, h.2.imp_right (PlainScalar.endsWord_append ys)⟩

theorem Scanner.token_plain {s : Scanner} {d : Char} {ds : List Char} (hflow : s.outerKeys = [])
    (hmark : s.cursor.atMark '-' = false) (hdots : s.cursor.atMark '.' = false)
    (hleading : isLeadingIndicator d ds = false) (hspace : isSpace d = false) :
    s.token d ds = s.plainScalar := by
  simp only [isLeadingIndicator, Bool.or_eq_false_iff] at hleading
  obtain ⟨hsigns, hapart⟩ := hleading
  have hne (x : Char) (hx : "#,[]\x7b\x7d&*!|>\x27\x22%@\x60".toList.contains x = true) :
      d ≠ x := by
    rintro rfl
    rw [hx] at hsigns
    cases hsigns
  have hword (x : Char) (hx : (x == '?' || x == ':' || x == '-') = true) :
      ¬ (d = x ∧ endsWord ds = true) := by
    rintro ⟨rfl, hend⟩
    rw [hx, hend] at hapart
    cases hapart
  have hbegins : beginsPlain false d ds = true := by
    have hends (h : (d == '?' || d == ':' || d == '-') = true) : endsWord ds = false := by
      rw [h] at hapart
      simpa using hapart
    rw [beginsPlain]
    by_cases hdash : d = '-'
    · have hend := hends (by rw [hdash]; rfl)
      cases ds with
      | nil => cases hend
      | cons e es =>
        rw [endsWord, isSpaceOrBreak, Bool.or_eq_false_iff] at hend
        simp [hdash, hend.1]
    · by_cases hsign : d = '?' ∨ d = ':'
      · have hend := hends (by obtain rfl | rfl := hsign <;> rfl)
        obtain rfl | rfl := hsign <;> simp [hend]
      · rw [not_or] at hsign
        simp [hspace, hdash, hsign, hne ',' (by decide), hne '[' (by decide), hne ']' (by decide),
          hne '{' (by decide), hne '}' (by decide), hne '#' (by decide), hne '&' (by decide),
          hne '*' (by decide), hne '!' (by decide), hne '|' (by decide), hne '>' (by decide),
          hne '\'' (by decide), hne '\x22' (by decide), hne '%' (by decide), hne '@' (by decide),
          hne '\x60' (by decide)]
  rw [token]
  simp only [hne '%' (by decide), hne '[' (by decide), hne ']' (by decide), hne '{' (by decide),
    hne '}' (by decide), hne ',' (by decide), hne '*' (by decide), hne '&' (by decide),
    hne '!' (by decide), hne '|' (by decide), hne '>' (by decide), hne '\'' (by decide),
    hne '\x22' (by decide), hmark, hdots, hword '-' (by decide), and_false, false_and, if_false,
    Bool.false_eq_true, inFlow, hflow, List.isEmpty_nil, Bool.not_true, false_or,
    hword '?' (by decide), hword ':' (by decide), hbegins, if_true]

namespace Spot

variable {column : Nat} {tokens : List Token} {indents : List Int} {keyAllowed : Bool}

theorem stopsSkip_of_isPlain {d : Char} {ds : List Char} (h : IsPlain (d :: ds)) :
    stopsSkip d = true := by
  obtain ⟨hleading, hspace⟩ := h.head d ds rfl
  have hprintable := h.printable d List.mem_cons_self
  have htab : d ≠ '\t' := by
    rintro rfl
    exact absurd hprintable (by decide)
  have hmark : d ≠ byteOrderMark := by
    rintro rfl
    exact absurd hprintable (by decide)
  have hcomment : d ≠ '#' := by
    rintro rfl
    simp [isLeadingIndicator] at hleading
  simp [stopsSkip, isSpaceOrBreak, isSpace, h.unbroken d List.mem_cons_self, hspace, htab, hmark,
    hcomment]

/-- The state behind a plain text, in the line that follows. -/
def behindPlain (p : Spot) (text left : List Char) (m line index : Nat) : Scanner :=
  ⟨⟨left, line + 1, m, index + text.length + 1 + m⟩, .scalar .plain (.ofList text) :: p.tokens,
    p.indents, true, p.ownKey line index, []⟩

theorem plainScalar_of_isPlain {p : Spot} (hplain : IsPlain cs) (hstops : StopsSkip rest)
    (hrest : p.rest = cs ++ '\n' :: (Render.blanks m ++ rest)) (hindent : p.indents.headD (-1) = n)
    (hcolumn : n < p.column) (hm : m ≤ n) (line index : Nat) :
    (p.scanner line index).plainScalar = some (p.behindPlain cs rest m line index) := by
  have hinside : (m : Int) < p.indents.headD (-1) + 1 := by omega
  have hwithin : p.indents.headD (-1) + 1 ≤ p.column := by omega
  have hhead : ∀ d ∈ cs.head?, isSpaceOrBreak d = false ∧ d ≠ '#' := by
    intro d hd
    obtain ⟨ds, rfl⟩ := List.head?_eq_some_iff.mp hd
    have hstop := stopsSkip_cons ds (stopsSkip_of_isPlain hplain)
    exact ⟨hstop.word d rfl, hstop.head.2.1⟩
  have hfuel : cs.length < p.rest.length + 1 := by
    simp only [hrest, List.length_cons, List.length_append]
    omega
  have hscan : PlainScalar.scan false (p.indents.headD (-1) + 1) (p.rest.length + 1) [] .none
      (p.scanner line index).cursor =
        some ⟨cs, true, ⟨rest, line + 1, m, index + cs.length + 1 + m⟩⟩ :=
    PlainScalar.scan_words hplain hstops hinside rfl hplain.ne_nil hhead hrest
      (Nat.lt_of_le_of_lt (Nat.zero_le n) hcolumn) hwithin hfuel
  rw [Scanner.plainScalar, saveKey_scanner (by omega)]
  show (PlainScalar.scan false (p.indents.headD (-1) + 1) (p.rest.length + 1) [] .none
    (p.scanner line index).cursor).bind _ = _
  rw [hscan]
  rfl

/-- **A plain text is read** with the break behind it. -/
theorem leads_plain (hplain : IsPlain cs) (ht : Dedented n t) (hindent : indents.headD (-1) = n)
    (hcolumn : n < column) :
    Leads ⟨cs ++ '\n' :: t, column, tokens, indents, keyAllowed⟩
      ⟨t, 0, .scalar .plain (.ofList cs) :: tokens, indents, true⟩ := by
  obtain ⟨m, rest, rfl, hstops, hm⟩ := ht.exists_blanks
  obtain ⟨d, ds, rfl⟩ := List.exists_cons_of_ne_nil hplain.ne_nil
  have hstop := stopsSkip_of_isPlain hplain
  obtain ⟨⟨hspace, htab⟩, -⟩ := (stopsSkip_cons ds hstop).head
  refine leads_token rfl hstop (by dsimp only; omega) (by simp; omega) fun line index hindex => ?_
  let p : Spot :=
    ⟨d :: (ds ++ '\n' :: (Render.blanks m ++ rest)), column, tokens, indents, keyAllowed⟩
  have hmark := Cursor.atMark_of_pos (k := (p.scanner line index).cursor)
    (Nat.lt_of_le_of_lt (Nat.zero_le n) hcolumn)
  have htoken : (p.scanner line index).token d (ds ++ '\n' :: (Render.blanks m ++ rest)) =
      (p.scanner line index).plainScalar :=
    Scanner.token_plain rfl (hmark _) (hmark _)
      (isLeadingIndicator_append (hplain.head d ds rfl).1) (by simp [isSpace, hspace, htab])
  have hread := plainScalar_of_isPlain (p := p) hplain hstops rfl hindent hcolumn hm line index
  refine ⟨p.behindPlain (d :: ds) rest m line index, line + 1, index + (d :: ds).length + 1,
    Nat.zero_le _, htoken.trans hread, ?_⟩
  rw [settle_scanner hstops,
    Scanner.settle_blanks (m := 0) rfl hstops (stale_ownKey p line index) rfl, Nat.zero_add]
  rfl

end Spot

/-! ### Keys -/

theorem IsName.ne {name : List Char} (h : IsName name) {d x : Char} (hd : d ∈ name)
    (hx : (x.isLower || x == '_') = false) : d ≠ x := by
  rintro rfl
  rw [h.letters d hd] at hx
  cases hx

theorem IsName.word {name : List Char} (h : IsName name) {d : Char} (hd : d ∈ name) :
    isSpaceOrBreak d = false := by
  have hbegins : beginsLine d = true := by
    rw [beginsLine, h.letters d hd, Bool.true_or]
  exact (stopsSkip_cons [] (stopsSkip_of_beginsLine hbegins)).word d rfl

theorem IsName.exists_cons {name : List Char} (h : IsName name) :
    ∃ d ds, name = d :: ds ∧ d ∈ name ∧ beginsLine d = true := by
  obtain ⟨d, ds, rfl⟩ := List.exists_cons_of_ne_nil h.ne_nil
  refine ⟨d, ds, rfl, List.mem_cons_self, ?_⟩
  rw [beginsLine, h.letters d List.mem_cons_self, Bool.true_or]

theorem PlainScalar.scan_name {name after : List Char} (h : IsName name)
    (hend : endsWord after = true) (hrest : c.rest = name ++ ':' :: after) :
    scan false indent (fuel + 1) [] .none c =
      some ⟨name, false,
        ⟨':' :: after, c.line, c.column + name.length, c.index + name.length⟩⟩ := by
  obtain ⟨d, ds, hname, hd, -⟩ := h.exists_cons
  have hcons : c.rest = d :: (ds ++ ':' :: after) := by rw [hrest, hname]; rfl
  have hmark : c.atDocumentMark = false := by
    have hdash : d ≠ '-' := h.ne hd (by decide)
    have hdot : d ≠ '.' := h.ne hd (by decide)
    simp [Cursor.atDocumentMark, Cursor.atMark, hcons, hdash, hdot]
  have hword : word false (name ++ ':' :: after) = some (name, ':' :: after) := by
    refine word_append (fun e he => h.word he) (fun front back heq => ?_) ?_
    · exact absurd rfl (h.ne (d := ':') (by rw [heq]; simp) (by decide))
    · rintro e es ⟨⟩
      exact Or.inr ⟨rfl, hend⟩
  have hcolon : isSpaceOrBreak ':' = false := by decide
  rw [scan, hmark, hcons]
  simp only [List.head?_cons, Bool.false_or, beq_iff_eq, Option.some.injEq,
    h.ne hd (x := '#') (by decide), if_false]
  rw [← hcons, hrest, hword]
  simp [h.ne_nil, hcolon, Cursor.skip, hrest, Spacing.none, Spacing.text]

namespace Spot

variable {column : Nat} {tokens : List Token} {indents : List Int} {name after : List Char}

/-- The state behind a name where a key was allowed. -/
def behindName (p : Spot) (name after : List Char) (line index : Nat) : Scanner :=
  ⟨⟨':' :: after, line, p.column + name.length, index + name.length⟩,
    .scalar .plain (.ofList name) :: p.tokens, p.indents, false,
    some ⟨p.tokens.length, line, p.column, index, p.indents.headD (-1) == (p.column : Int)⟩, []⟩

section

variable {p : Spot}

theorem reaches_behindName (h : IsName name) (hend : endsWord after = true)
    (hrest : p.rest = name ++ ':' :: after) (hallowed : p.keyAllowed = true)
    (hindent : p.indents.headD (-1) ≤ p.column) (line index : Nat) :
    (p.scanner line index).Reaches (p.behindName name after line index) := by
  obtain ⟨d, ds, hname, hd, hbegins⟩ := h.exists_cons
  have hcons : p.rest = d :: (ds ++ ':' :: after) := by rw [hrest, hname, List.cons_append]
  have hstop : stopsSkip d = true := stopsSkip_of_beginsLine hbegins
  have hmark (mark : Char) (hne : d ≠ mark) : (p.scanner line index).cursor.atMark mark = false :=
    Scanner.atMark_of_ne hcons hne
  have hleading : isLeadingIndicator d (ds ++ ':' :: after) = false :=
    isLeadingIndicator_of_kind (fun x => x.isLower || x == '_') (by decide) (h.letters d hd)
  have hspace : isSpace d = false := by
    simp [isSpace, h.ne hd (x := ' ') (by decide), h.ne hd (x := '\t') (by decide)]
  have htoken : (p.scanner line index).token d (ds ++ ':' :: after) =
      (p.scanner line index).plainScalar :=
    Scanner.token_plain rfl (hmark _ (h.ne hd (by decide))) (hmark _ (h.ne hd (by decide)))
      hleading hspace
  have hscan : PlainScalar.scan false (p.indents.headD (-1) + 1) (p.rest.length + 1) [] .none
      (p.scanner line index).cursor =
        some ⟨name, false, ⟨':' :: after, line, p.column + name.length, index + name.length⟩⟩ :=
    PlainScalar.scan_name h hend hrest
  refine Scanner.reaches_of_token (settle_of_stops hcons hstop line index) hcons ?_ rfl ?_
  · rw [Scanner.unroll_of_le hindent, htoken, Scanner.plainScalar]
    have hkey : (p.scanner line index).saveKey = some { p.scanner line index with
        key := some ⟨p.tokens.length, line, p.column, index,
          p.indents.headD (-1) == (p.column : Int)⟩ } := by
      have hallowed : (p.scanner line index).keyAllowed = true := hallowed
      rw [Scanner.saveKey, if_pos hallowed]
      rfl
    rw [hkey]
    show (PlainScalar.scan false (p.indents.headD (-1) + 1) (p.rest.length + 1) [] .none
      (p.scanner line index).cursor).bind _ = _
    rw [hscan]
    rfl
  · have := List.length_pos_of_ne_nil h.ne_nil
    simp only [behindName, scanner, hrest, List.length_append]
    omega

theorem settle_behindName (h : IsName name) (p : Spot) (after : List Char) (line index : Nat) :
    (p.behindName name after line index).settle = some (p.behindName name after line index) := by
  have hfresh : Scanner.freshKey (p.behindName name after line index).cursor
      (p.behindName name after line index).key = some (p.behindName name after line index).key := by
    refine if_neg ?_
    have hlength := h.length_le
    simp only [not_or, behindName]
    omega
  rw [Scanner.settle, Scanner.skipToToken_blanks (m := 0) rfl (stopsSkip_cons after (by decide)),
    Scanner.dropStaleKeys]
  simp only [Nat.add_zero]
  show (Scanner.freshKey (p.behindName name after line index).cursor
    (p.behindName name after line index).key).bind _ = _
  rw [hfresh]
  rfl

/-- The colon behind a name makes it a key. If it is indented further than the block, it begins
one. -/
theorem valueSign_behindName {opened : List Token} {inside : List Int}
    (hblock : p.indents.headD (-1) = p.column ∧ opened = p.tokens ∧ inside = p.indents ∨
      p.indents.headD (-1) < p.column ∧ opened = .blockMapping :: p.tokens ∧
        inside = (p.column : Int) :: p.indents) (line index : Nat) :
    (p.behindName name after line index).valueSign =
      some (scanner ⟨after, p.column + name.length + 1,
        .value :: .scalar .plain (.ofList name) :: .key :: opened, inside, false⟩ line
        (index + name.length + 1)) := by
  have hinsert := Scanner.insert_append (s := p.behindName name after line index)
    [.scalar .plain (.ofList name)] p.tokens .key rfl
  have hroll : ((p.behindName name after line index).insert p.tokens.length .key).roll p.column
      p.tokens.length .blockMapping =
        { p.behindName name after line index with
          tokens := .scalar .plain (.ofList name) :: .key :: opened
          indents := inside } := by
    rw [hinsert]
    obtain ⟨hindent, rfl, rfl⟩ | ⟨hindent, rfl, rfl⟩ := hblock
    · exact Scanner.roll_of_le (Int.le_of_eq hindent.symm)
    · exact Scanner.roll_of_lt [.scalar .plain (.ofList name), .key] _ _ rfl hindent rfl
  show some ((Scanner.skip { ((p.behindName name after line index).insert p.tokens.length
    .key).roll p.column p.tokens.length .blockMapping with
      key := none, keyAllowed := false } 1).push .value) = _
  rw [hroll]
  rfl

end

/-- **A key is read** with its colon. If it is indented further than the block, it begins one. -/
theorem leads_key (h : IsName name) (hend : endsWord after = true) {opened : List Token}
    {inside : List Int}
    (hblock : indents.headD (-1) = column ∧ opened = tokens ∧ inside = indents ∨
      indents.headD (-1) < column ∧ opened = .blockMapping :: tokens ∧
        inside = (column : Int) :: indents) :
    Leads ⟨name ++ ':' :: after, column, tokens, indents, true⟩
      ⟨after, column + name.length + 1, .value :: .scalar .plain (.ofList name) :: .key :: opened,
        inside, false⟩ := by
  intro line index hindex
  let p : Spot := ⟨name ++ ':' :: after, column, tokens, indents, true⟩
  have hindent : p.indents.headD (-1) ≤ p.column := by
    obtain ⟨h, -⟩ | ⟨h, -⟩ := hblock
    · exact Int.le_of_eq h
    · exact Int.le_of_lt h
  have htoken : (p.behindName name after line index).token ':' after =
      (p.behindName name after line index).valueSign := by
    have hflow : (p.behindName name after line index).inFlow = false := rfl
    simp [Scanner.token, Scanner.atMark_of_ne (s := p.behindName name after line index) rfl, hflow,
      hend]
  have hwithin : (p.behindName name after line index).indent ≤
      (p.behindName name after line index).cursor.column := by
    simp only [Scanner.indent, behindName]
    omega
  refine ⟨line, index + name.length + 1, by dsimp only at hindex ⊢; omega,
    (reaches_behindName h hend rfl rfl hindent line index).trans ?_⟩
  refine Scanner.reaches_of_token (settle_behindName h p after line index) rfl ?_ rfl
    (Nat.lt_succ_self _)
  rw [Scanner.unroll_of_le hwithin, htoken]
  exact valueSign_behindName hblock line index

end Spot

end ChainMigration.Yaml
