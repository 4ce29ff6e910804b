import ChainMigration.Yaml.Render
import ChainMigration.Yaml.Scanner

/-! # From one place of a document to another

Scanning leads from one spot between two tokens to another (`Spot.Leads`): with as many steps as
characters lie between them at most, so that the characters of a document are fuel enough for all of
it. What follows a line that has been read is a line that is indented no further than a block, or
nothing (`Dedented`); the blocks that are indented further end there (`Spot.leads_close`). -/

namespace ChainMigration.Yaml

/-! ### Lines that follow -/

/-- The character may begin a line: it begins a key or is a dash. -/
def beginsLine (c : Char) : Bool := c.isLower || c == '_' || c == '-'

/-- **The text goes on with a line** that is indented so far at most, or ends. -/
def Dedented (indent : Nat) (cs : List Char) : Prop :=
  cs = [] ∨ ∃ m c rest, m ≤ indent ∧ beginsLine c = true ∧ cs = Render.blanks m ++ c :: rest

theorem Dedented.mono {i j : Nat} {cs : List Char} (h : Dedented i cs) (hij : i ≤ j) :
    Dedented j cs := by
  obtain rfl | ⟨m, c, rest, hm, hc, rfl⟩ := h
  · exact Or.inl rfl
  · exact Or.inr ⟨m, c, rest, by omega, hc, rfl⟩

theorem toNat_of_isLower {c : Char} (h : c.isLower = true) : 97 ≤ c.toNat ∧ c.toNat ≤ 122 := by
  have hrange : (decide (97 ≤ c.toNat) && decide (c.toNat ≤ 122)) = true := h
  simpa using hrange

/-- Passing blanks, comments and breaks stops at the character. -/
def stopsSkip (c : Char) : Bool := !(isSpaceOrBreak c || c == '#' || c == byteOrderMark)

theorem stopsSkip_of_beginsLine {c : Char} (h : beginsLine c = true) : stopsSkip c = true := by
  have hrange : 97 ≤ c.toNat ∧ c.toNat ≤ 122 ∨ c = '_' ∨ c = '-' := by
    simp only [beginsLine, Bool.or_eq_true, beq_iff_eq] at h
    obtain (hlower | rfl) | rfl := h
    · exact Or.inl (toNat_of_isLower hlower)
    · exact Or.inr (Or.inl rfl)
    · exact Or.inr (Or.inr rfl)
  obtain ⟨hlow, hhigh⟩ | rfl | rfl := hrange
  · have hne (d : Char) (hd : d.toNat < 97 ∨ 122 < d.toNat) : c ≠ d := by
      rintro rfl
      omega
    simp [stopsSkip, isSpaceOrBreak, isSpace, isBreak, hne ' ' (by decide), hne '\t' (by decide),
      hne '\n' (by decide), hne '#' (by decide), hne byteOrderMark (by decide)]
    omega
  · decide
  · decide

/-- Nothing is passed before the text: it ends or goes on with a word. -/
def StopsSkip (cs : List Char) : Prop := ∀ c ∈ cs.head?, stopsSkip c = true

theorem stopsSkip_nil : StopsSkip [] := nofun

theorem stopsSkip_cons {c : Char} (cs : List Char) (h : stopsSkip c = true) :
    StopsSkip (c :: cs) := by
  rintro d ⟨⟩
  exact h

theorem StopsSkip.head {c : Char} {cs : List Char} (h : StopsSkip (c :: cs)) :
    (c ≠ ' ' ∧ c ≠ '\t') ∧ c ≠ '#' ∧ isBreak c = false ∧ c ≠ byteOrderMark := by
  have hc := h c rfl
  simp only [stopsSkip, isSpaceOrBreak, isSpace, Bool.not_eq_true', Bool.or_eq_false_iff,
    beq_eq_false_iff_ne] at hc
  obtain ⟨⟨⟨hspace, hbreak⟩, hcomment⟩, hmark⟩ := hc
  exact ⟨hspace, hcomment, hbreak, hmark⟩

theorem StopsSkip.word {cs : List Char} (h : StopsSkip cs) :
    ∀ c ∈ cs.head?, isSpaceOrBreak c = false := by
  intro c hc
  have hstop := h c hc
  simp only [stopsSkip, Bool.not_eq_true', Bool.or_eq_false_iff] at hstop
  exact hstop.1.1

theorem Dedented.exists_blanks {indent : Nat} {cs : List Char} (h : Dedented indent cs) :
    ∃ m rest, cs = Render.blanks m ++ rest ∧ StopsSkip rest ∧ m ≤ indent := by
  obtain rfl | ⟨m, c, rest, hm, hc, rfl⟩ := h
  · exact ⟨0, [], rfl, stopsSkip_nil, Nat.zero_le _⟩
  · refine ⟨m, c :: rest, rfl, ?_, hm⟩
    rintro d ⟨⟩
    exact stopsSkip_of_beginsLine hc

/-! ### Passing blanks and breaks -/

theorem exists_span (p : Char → Bool) (cs : List Char) : ∃ front back, cs = front ++ back ∧
    (∀ c ∈ front, p c = true) ∧ ∀ c ∈ back.head?, p c = false := by
  induction cs with
  | nil => exact ⟨[], [], rfl, nofun, nofun⟩
  | cons c cs ih =>
    by_cases hc : p c = true
    · obtain ⟨front, back, rfl, hfront, hback⟩ := ih
      exact ⟨c :: front, back, rfl, List.forall_mem_cons.mpr ⟨hc, hfront⟩, hback⟩
    · exact ⟨[], c :: cs, rfl, nofun, by rintro d ⟨⟩; simpa using hc⟩

theorem Cursor.skipRun_append {k : Cursor} {p : Char → Bool} {taken rest : List Char}
    (hrest : k.rest = taken ++ rest) (htaken : ∀ c ∈ taken, p c = true)
    (hp : ∀ c ∈ rest.head?, p c = false) :
    k.skipRun p = ⟨rest, k.line, k.column + taken.length, k.index + taken.length⟩ := by
  have hall : k.rest.takeWhile p = taken := by
    rw [hrest, List.takeWhile_append_of_pos htaken]
    cases rest with
    | nil => simp
    | cons c cs => rw [List.takeWhile_cons_of_neg (by simp [hp c rfl]), List.append_nil]
  rw [Cursor.skipRun, Cursor.run, hall, Cursor.skip, hrest, List.drop_left]

/-- The marks of documents stand at the start of a line. -/
theorem Cursor.atMark_of_pos {k : Cursor} (h : 0 < k.column) (mark : Char) :
    k.atMark mark = false := by
  simp [atMark, Nat.ne_of_gt h]

theorem Cursor.atDocumentMark_of_pos {k : Cursor} (h : 0 < k.column) :
    k.atDocumentMark = false := by
  rw [atDocumentMark, atMark_of_pos h, atMark_of_pos h, Bool.or_self]

theorem Cursor.skipRun_nil {k : Cursor} {p : Char → Bool} {rest : List Char}
    (hrest : k.rest = rest) (hp : ∀ c ∈ rest.head?, p c = false) :
    k.skipRun p = ⟨rest, k.line, k.column, k.index⟩ :=
  skipRun_append (hrest.trans (List.nil_append rest).symm) (List.forall_mem_nil _) hp

namespace Scanner

variable {s : Scanner} {c : Char} {cs rest : List Char} {m fuel indent : Nat}

theorem skipToToken_blanks (hrest : s.cursor.rest = Render.blanks m ++ rest)
    (hstops : StopsSkip rest) :
    skipToToken (fuel + 1) s =
      { s with cursor := ⟨rest, s.cursor.line, s.cursor.column + m, s.cursor.index + m⟩ } := by
  have hhead : s.cursor.rest.head? ≠ some byteOrderMark := by
    rw [hrest]
    cases m with
    | succ m => simp [Render.blanks, List.replicate_succ]; decide
    | zero =>
      cases rest with
      | nil => simp [Render.blanks]
      | cons c cs => simpa [Render.blanks] using hstops.head.2.2.2
  have hmark : (s.cursor.index == 0 && s.cursor.rest.head? == some byteOrderMark) = false := by
    simp [hhead]
  have hskip : s.cursor.skipRun (fun d => d == ' ' || (d == '\t' && (s.inFlow || !s.keyAllowed))) =
      ⟨rest, s.cursor.line, s.cursor.column + m, s.cursor.index + m⟩ := by
    rw [Cursor.skipRun_append hrest, Render.blanks, List.length_replicate]
    · intro d hd
      simp [(List.mem_replicate.mp hd).2]
    · intro d hd
      cases rest with
      | nil => cases hd
      | cons c cs =>
        cases hd
        simp [hstops.head.1]
  have hcomment : rest.head? ≠ some '#' := by
    cases rest with
    | nil => simp
    | cons c cs => simpa using hstops.head.2.1
  have hbreak : rest.head?.any isBreak = false := by
    cases rest with
    | nil => rfl
    | cons c cs => exact hstops.head.2.2.1
  simp [skipToToken, hmark, hskip, Cursor.skipComment, hcomment, hbreak]

theorem skipToToken_break (hrest : s.cursor.rest = '\n' :: rest) (hflow : s.outerKeys = []) :
    skipToToken (fuel + 1) s = skipToToken fuel
      { s with
        cursor := ⟨rest, s.cursor.line + 1, 0, s.cursor.index + 1⟩
        keyAllowed := true } := by
  have hmark : (s.cursor.index == 0 && s.cursor.rest.head? == some byteOrderMark) = false := by
    have hne : '\n' ≠ byteOrderMark := by decide
    simp [hrest, hne]
  have hskip : s.cursor.skipRun (fun d => d == ' ' || (d == '\t' && (s.inFlow || !s.keyAllowed))) =
      s.cursor := by
    rw [Cursor.skipRun_nil hrest (by simp), ← hrest]
  simp only [skipToToken, hmark, Bool.false_eq_true, if_false, hskip]
  simp [Cursor.skipComment, hrest, isBreak, Cursor.skipBreak, inFlow, hflow]

/-! ### Steps -/

/-- The state before the next token: blanks are passed and keys that are too long are dropped. -/
def settle (s : Scanner) : Option Scanner :=
  (skipToToken (s.cursor.rest.length + 1) s).dropStaleKeys

theorem run_eq (s : Scanner) (fuel : Nat) :
    run (fuel + 1) s = s.settle.bind fun s =>
      match s.cursor.rest with
      | [] => (s.unroll (-1)).dropKey
      | c :: cs => ((s.unroll s.cursor.column).token c cs).bind (run fuel) := rfl

/-- **Scanning leads from one state to another** in no more steps than characters are passed. -/
def Reaches (s s' : Scanner) : Prop :=
  ∃ steps, steps + s'.cursor.rest.length ≤ s.cursor.rest.length ∧
    ∀ fuel, run (fuel + 1 + steps) s = run (fuel + 1) s'

theorem Reaches.trans {s₁ s₂ s₃ : Scanner} (h : s₁.Reaches s₂) (h' : s₂.Reaches s₃) :
    s₁.Reaches s₃ := by
  obtain ⟨i, hi, hrun⟩ := h
  obtain ⟨j, hj, hrun'⟩ := h'
  refine ⟨i + j, by omega, fun fuel => ?_⟩
  calc run (fuel + 1 + (i + j)) s₁ = run (fuel + j + 1 + i) s₁ := by congr 1; omega
    _ = run (fuel + j + 1) s₂ := hrun _
    _ = run (fuel + 1 + j) s₂ := by congr 1; omega
    _ = run (fuel + 1) s₃ := hrun' _

/-- States from which the same token comes next are the same. -/
theorem reaches_of_settle {s' : Scanner} (h : s.settle = s'.settle)
    (hlength : s'.cursor.rest.length ≤ s.cursor.rest.length) : s.Reaches s' := by
  refine ⟨0, by omega, fun fuel => ?_⟩
  rw [Nat.add_zero, run_eq, run_eq, h]

theorem reaches_of_token {there after s' : Scanner} (hsettle : s.settle = some there)
    (hrest : there.cursor.rest = c :: cs)
    (htoken : (there.unroll there.cursor.column).token c cs = some after)
    (hafter : after.settle = s'.settle)
    (hlength : s'.cursor.rest.length < s.cursor.rest.length) : s.Reaches s' := by
  refine ⟨1, by omega, fun fuel => ?_⟩
  rw [run_eq, hsettle, Option.bind_some, hrest]
  show ((there.unroll there.cursor.column).token c cs).bind (run (fuel + 1)) = _
  rw [htoken, Option.bind_some, run_eq, run_eq, hafter]

/-! ### Keys that are given up -/

/-- The place of a key is given up in a later line unless a key must stand there. -/
def Stale (line : Nat) (key : Option KeyPlace) : Prop :=
  ∀ k ∈ key, k.required = false ∧ k.line < line

theorem stale_none (line : Nat) : Stale line none := nofun

theorem dropStaleKeys_of_stale (hkey : Stale s.cursor.line s.key) (hflow : s.outerKeys = []) :
    s.dropStaleKeys = some { s with key := none } := by
  have hfresh : freshKey s.cursor s.key = some none := by
    cases hk : s.key with
    | none => rfl
    | some k =>
      obtain ⟨hrequired, hlt⟩ := hkey k hk
      rw [freshKey, if_pos (Or.inl hlt), hrequired]
      rfl
  rw [dropStaleKeys, hfresh]
  simp [hflow]

/-- Between two tokens blanks are passed. -/
theorem settle_blanks (hrest : s.cursor.rest = Render.blanks m ++ rest) (hstops : StopsSkip rest)
    (hkey : Stale s.cursor.line s.key) (hflow : s.outerKeys = []) :
    s.settle = some
      { s with
        cursor := ⟨rest, s.cursor.line, s.cursor.column + m, s.cursor.index + m⟩
        key := none } := by
  rw [settle, skipToToken_blanks hrest hstops]
  exact dropStaleKeys_of_stale hkey hflow

theorem settle_break (hrest : s.cursor.rest = '\n' :: (Render.blanks m ++ rest))
    (hstops : StopsSkip rest) (hkey : Stale (s.cursor.line + 1) s.key) (hflow : s.outerKeys = []) :
    s.settle = some
      { s with
        cursor := ⟨rest, s.cursor.line + 1, m, s.cursor.index + 1 + m⟩
        keyAllowed := true
        key := none } := by
  rw [settle, skipToToken_break hrest hflow, hrest, List.length_cons, skipToToken_blanks rfl hstops,
    Nat.zero_add]
  exact dropStaleKeys_of_stale hkey hflow

/-! ### Blocks -/

/-- The blocks stay open before a token that is not indented less. -/
theorem unroll_of_le {column : Int} (h : s.indent ≤ column) : s.unroll column = s := by
  have hclose : closeBlocks column s.indents s.tokens = (s.indents, s.tokens) := by
    cases hs : s.indents with
    | nil => rfl
    | cons i is =>
      rw [indent, hs, List.headD_cons] at h
      rw [closeBlocks, if_neg (by omega)]
  rw [unroll, hclose]
  exact ite_self _

/-- No block begins at a column that is not indented further. -/
theorem roll_of_le {column number : Nat} {t : Token} (h : (column : Int) ≤ s.indent) :
    s.roll column number t = s :=
  if_pos (Or.inr h)

theorem insert_append (later earlier : List Token) (t : Token) (h : s.tokens = later ++ earlier) :
    s.insert earlier.length t = { s with tokens := later ++ t :: earlier } := by
  have hlength : (later ++ earlier).length - earlier.length = later.length := by simp
  rw [insert, h, hlength, List.splitAt_eq, List.take_left, List.drop_left]

theorem roll_of_lt (later earlier : List Token) (t : Token) {column : Nat}
    (hflow : s.outerKeys = []) (h : s.indent < column) (htokens : s.tokens = later ++ earlier) :
    s.roll column earlier.length t =
      { s with tokens := later ++ t :: earlier, indents := column :: s.indents } := by
  rw [roll, if_neg (by simp [inFlow, hflow, h]), insert_append _ _ _ htokens]

theorem dropKey_of_none (h : s.key = none) : s.dropKey = some s := by
  cases s
  cases h
  rfl

theorem blockEntry_of_rollHere {rolled : Scanner} (hflow : s.outerKeys = [])
    (hallowed : s.keyAllowed = true) (hroll : s.rollHere .blockSequence = rolled)
    (hkey : rolled.key = none) :
    s.blockEntry = some (({ rolled with keyAllowed := true }.skip 1).push .blockEntry) := by
  rw [blockEntry, hroll, dropKey_of_none hkey]
  simp [inFlow, hflow, hallowed]

theorem atMark_of_ne {mark : Char} (hrest : s.cursor.rest = c :: cs) (h : c ≠ mark) :
    s.cursor.atMark mark = false := by
  simp [Cursor.atMark, hrest, List.take_succ_cons, h]

/-- A key may begin at the place if one is allowed there; it need not. -/
theorem saveKey_of_lt (hkey : s.key = none) (hindent : s.indent < s.cursor.column) :
    s.saveKey = some { s with
      key := if s.keyAllowed then
          some ⟨s.tokens.length, s.cursor.line, s.cursor.column, s.cursor.index, false⟩
        else none } := by
  have hrequired : (s.indent == (s.cursor.column : Int)) = false := by
    rw [beq_eq_false_iff_ne]
    omega
  rw [saveKey]
  split
  · next hallowed => simp [dropKey_of_none hkey, hrequired]
  · rw [← hkey]

/-- A dash at the start of a word. -/
theorem token_dash (hrest : s.cursor.rest = '-' :: ' ' :: rest) :
    s.token '-' (' ' :: rest) = s.blockEntry := by
  have hmark (mark : Char) : s.cursor.atMark mark = false := by
    rw [Bool.eq_false_iff]
    intro h
    simp only [Cursor.atMark, hrest, List.take_succ_cons, Bool.and_eq_true, beq_iff_eq,
      List.cons.injEq] at h
    obtain ⟨⟨-, rfl, hspace, -⟩, -⟩ := h
    exact absurd hspace (by decide)
  simp [token, hmark, endsWord, isSpaceOrBreak, isSpace]

end Scanner

/-! ### Spots -/

/-- A spot between two tokens, outside of brackets, where no key is kept. -/
structure Spot where
  rest : List Char
  column : Nat
  tokens : List Token
  indents : List Int
  keyAllowed : Bool

namespace Spot

variable {p q r : Spot} {cs rest t : List Char} {column m i : Nat} {tokens : List Token}
  {indents : List Int} {keyAllowed : Bool}

/-- The state at the spot in a line. -/
def scanner (p : Spot) (line index : Nat) : Scanner :=
  ⟨⟨p.rest, line, p.column, index⟩, p.tokens, p.indents, p.keyAllowed, none, []⟩

/-- **Scanning leads from one spot to another**, whatever the lines before. -/
def Leads (p q : Spot) : Prop :=
  ∀ line index, p.column ≤ index → ∃ line' index', q.column ≤ index' ∧
    (p.scanner line index).Reaches (q.scanner line' index')

theorem Leads.refl (p : Spot) : p.Leads p := fun line index hindex =>
  ⟨line, index, hindex, Scanner.reaches_of_settle rfl (Nat.le_refl _)⟩

theorem Leads.trans (h : p.Leads q) (h' : q.Leads r) : p.Leads r := by
  intro line index hindex
  obtain ⟨line₁, index₁, hindex₁, hreaches⟩ := h line index hindex
  obtain ⟨line₂, index₂, hindex₂, hreaches'⟩ := h' line₁ index₁ hindex₁
  exact ⟨line₂, index₂, hindex₂, hreaches.trans hreaches'⟩

theorem settle_scanner (hstops : StopsSkip rest) (line index : Nat) :
    (scanner ⟨Render.blanks m ++ rest, column, tokens, indents, keyAllowed⟩ line index).settle =
      some ⟨⟨rest, line, column + m, index + m⟩, tokens, indents, keyAllowed, none, []⟩ :=
  Scanner.settle_blanks rfl hstops (Scanner.stale_none _) rfl

theorem leads_blanks (m column : Nat) (tokens : List Token) (indents : List Int) (keyAllowed : Bool)
    (hstops : StopsSkip rest) :
    Leads ⟨Render.blanks m ++ rest, column, tokens, indents, keyAllowed⟩
      ⟨rest, column + m, tokens, indents, keyAllowed⟩ := by
  intro line index hindex
  refine ⟨line, index + m, Nat.add_le_add_right hindex m, Scanner.reaches_of_settle ?_ ?_⟩
  · rw [settle_scanner hstops]
    exact (settle_scanner (m := 0) hstops line (index + m)).symm
  · simp [scanner]

theorem leads_break (hstops : StopsSkip rest) :
    Leads ⟨'\n' :: (Render.blanks m ++ rest), column, tokens, indents, keyAllowed⟩
      ⟨Render.blanks m ++ rest, 0, tokens, indents, true⟩ := by
  intro line index hindex
  refine ⟨line + 1, index + 1, Nat.zero_le _, Scanner.reaches_of_settle ?_ ?_⟩
  · rw [settle_scanner hstops, Nat.zero_add]
    exact Scanner.settle_break rfl hstops (Scanner.stale_none _) rfl
  · simp [scanner]

/-- **A block ends** before a line that is indented less. -/
theorem leads_close (tokens : List Token) (indents : List Int) {n : Nat} (ht : Dedented n t)
    (hn : n < i) :
    Leads ⟨t, 0, tokens, (i : Int) :: indents, true⟩
      ⟨t, 0, .blockEnd :: tokens, indents, true⟩ := by
  intro line index hindex
  obtain ⟨m, rest, rfl, hstops, hm⟩ := ht.exists_blanks
  refine ⟨line, index, hindex, 0, by simp [scanner], fun fuel => ?_⟩
  rw [Nat.add_zero, Scanner.run_eq, Scanner.run_eq, settle_scanner hstops, settle_scanner hstops]
  have hclose (column : Int) (hcolumn : column < i) :
      Scanner.closeBlocks column (i :: indents) tokens =
        Scanner.closeBlocks column indents (.blockEnd :: tokens) := by
    rw [Scanner.closeBlocks, if_pos hcolumn]
  cases rest with
  | nil =>
    simp only [Option.bind_some, Scanner.unroll, Scanner.inFlow]
    rw [hclose (-1) (by omega)]
    rfl
  | cons c cs =>
    have hcolumn : ((0 + m : Nat) : Int) < i := by omega
    simp only [Option.bind_some, Scanner.unroll, Scanner.inFlow]
    rw [hclose _ hcolumn]
    rfl

/-! ### Dashes -/

theorem settle_of_stops {c : Char} (hrest : p.rest = c :: cs) (hstops : stopsSkip c = true)
    (line index : Nat) : (p.scanner line index).settle = some (p.scanner line index) := by
  obtain ⟨rest, column, tokens, indents, keyAllowed⟩ := p
  cases hrest
  exact settle_scanner (m := 0) (by rintro d ⟨⟩; exact hstops) line index

theorem leads_token {c : Char} (hrest : p.rest = c :: cs) (hstops : stopsSkip c = true)
    (hindent : p.indents.headD (-1) ≤ p.column) (hlength : q.rest.length < p.rest.length)
    (htoken : ∀ line index, p.column ≤ index → ∃ after line' index', q.column ≤ index' ∧
      (p.scanner line index).token c cs = some after ∧
      after.settle = (q.scanner line' index').settle) : p.Leads q := by
  intro line index hindex
  obtain ⟨after, line', index', hindex', htoken, hafter⟩ := htoken line index hindex
  refine ⟨line', index', hindex', Scanner.reaches_of_token
    (settle_of_stops hrest hstops line index) hrest ?_ hafter hlength⟩
  rw [Scanner.unroll_of_le hindent]
  exact htoken

theorem leads_dash (hindent : indents.headD (-1) = column) :
    Leads ⟨'-' :: ' ' :: rest, column, tokens, indents, true⟩
      ⟨' ' :: rest, column + 1, .blockEntry :: tokens, indents, true⟩ := by
  refine leads_token rfl (by decide) (Int.le_of_eq hindent) (by simp) fun line index hindex => ?_
  refine ⟨_, line, index + 1, Nat.add_le_add_right hindex 1, ?_, rfl⟩
  rw [Scanner.token_dash rfl]
  exact Scanner.blockEntry_of_rollHere rfl rfl
    (Scanner.roll_of_le (Int.le_of_eq hindent.symm)) rfl

theorem leads_firstDash (hindent : indents.headD (-1) < column) :
    Leads ⟨'-' :: ' ' :: rest, column, tokens, indents, true⟩
      ⟨' ' :: rest, column + 1, .blockEntry :: .blockSequence :: tokens, column :: indents,
        true⟩ := by
  refine leads_token rfl (by decide) (Int.le_of_lt hindent) (by simp) fun line index hindex => ?_
  refine ⟨_, line, index + 1, Nat.add_le_add_right hindex 1, ?_, rfl⟩
  rw [Scanner.token_dash rfl]
  have hroll := Scanner.roll_of_lt [] tokens .blockSequence
    (s := scanner ⟨'-' :: ' ' :: rest, column, tokens, indents, true⟩ line index) rfl hindent rfl
  exact Scanner.blockEntry_of_rollHere rfl rfl hroll rfl

/-! ### Empty brackets -/

/-- The key that may begin at the spot. -/
def ownKey (p : Spot) (line index : Nat) : Option KeyPlace :=
  if p.keyAllowed then some ⟨p.tokens.length, line, p.column, index, false⟩ else none

theorem saveKey_scanner (hindent : p.indents.headD (-1) < p.column) (line index : Nat) :
    (p.scanner line index).saveKey =
      some { p.scanner line index with key := p.ownKey line index } :=
  Scanner.saveKey_of_lt rfl hindent

theorem stale_ownKey (p : Spot) (line index : Nat) :
    Scanner.Stale (line + 1) (p.ownKey line index) := by
  intro k hk
  rw [ownKey] at hk
  split at hk
  · cases hk
    exact ⟨rfl, Nat.lt_succ_self _⟩
  · cases hk

theorem freshKey_ownKey (p : Spot) {line index : Nat} {c : Cursor} (hline : c.line = line)
    (hindex : c.index ≤ index + 1024) :
    Scanner.freshKey c (p.ownKey line index) = some (p.ownKey line index) := by
  rw [ownKey]
  split
  · rw [Scanner.freshKey, if_neg]
    simp only [not_or]
    omega
  · rfl

/-- The opening and the closing character of empty brackets with their tokens. -/
inductive IsBrackets : Char → Char → Token → Token → Prop
  | sequence : IsBrackets '[' ']' .flowSequence .flowSequenceEnd
  | mapping : IsBrackets '\x7b' '\x7d' .flowMapping .flowMappingEnd

theorem IsBrackets.stopsSkip {c d : Char} {opening closing : Token}
    (h : IsBrackets c d opening closing) : stopsSkip c = true ∧ stopsSkip d = true := by
  cases h <;> decide

/-- The state between brackets, before what is left. -/
def insideBrackets (p : Spot) (opening : Token) (left : List Char) (line index : Nat) : Scanner :=
  ⟨⟨left, line, p.column + 1, index + 1⟩, opening :: p.tokens, p.indents, true, none,
    [p.ownKey line index]⟩

/-- The state behind empty brackets, before what is left. -/
def behindBrackets (p : Spot) (opening closing : Token) (left : List Char) (line index : Nat) :
    Scanner :=
  ⟨⟨left, line, p.column + 2, index + 2⟩, closing :: opening :: p.tokens, p.indents, false,
    p.ownKey line index, []⟩

section

variable {c d : Char} {opening closing : Token}

theorem reaches_insideBrackets (hbrackets : IsBrackets c d opening closing)
    (hrest : p.rest = c :: d :: rest) (hindent : p.indents.headD (-1) < p.column)
    (line index : Nat) :
    (p.scanner line index).Reaches (p.insideBrackets opening (d :: rest) line index) := by
  have htoken : (p.scanner line index).token c (d :: rest) =
      (p.scanner line index).flowStart opening := by
    cases hbrackets <;>
      simp [Scanner.token, Scanner.atMark_of_ne (s := p.scanner line index) hrest]
  refine Scanner.reaches_of_token
    (settle_of_stops hrest hbrackets.stopsSkip.1 line index) hrest ?_ rfl ?_
  · rw [Scanner.unroll_of_le (Int.le_of_lt hindent), htoken, Scanner.flowStart,
      saveKey_scanner hindent]
    simp [insideBrackets, scanner, Scanner.skip, Scanner.push, Cursor.skip, hrest]
  · simp [insideBrackets, scanner, hrest]

theorem reaches_behindBrackets (hbrackets : IsBrackets c d opening closing) (p : Spot)
    (rest : List Char) (line index : Nat) :
    (p.insideBrackets opening (d :: rest) line index).Reaches
      (p.behindBrackets opening closing rest line index) := by
  have htoken : (p.insideBrackets opening (d :: rest) line index).token d rest =
      (p.insideBrackets opening (d :: rest) line index).flowEnd closing := by
    have hmark := Cursor.atMark_of_pos
      (k := (p.insideBrackets opening (d :: rest) line index).cursor) (Nat.succ_pos _)
    cases hbrackets <;> simp [Scanner.token, hmark]
  have hsettle : (p.insideBrackets opening (d :: rest) line index).settle =
      some (p.insideBrackets opening (d :: rest) line index) := by
    have hfresh := freshKey_ownKey p (c := ⟨d :: rest, line, p.column + 1, index + 1⟩) rfl
      (Nat.add_le_add_left (by decide : 1 ≤ 1024) index)
    have hnone (k : Cursor) : Scanner.freshKey k none = some none := rfl
    rw [Scanner.settle, Scanner.skipToToken_blanks (m := 0) rfl
      (stopsSkip_cons rest hbrackets.stopsSkip.2), Scanner.dropStaleKeys]
    simp [insideBrackets, hfresh, hnone]
  refine Scanner.reaches_of_token hsettle rfl ?_ rfl (Nat.lt_succ_self _)
  -- Blocks do not end between brackets.
  have hunroll (i : Int) : (p.insideBrackets opening (d :: rest) line index).unroll i =
      p.insideBrackets opening (d :: rest) line index := rfl
  rw [hunroll, htoken]
  rfl

/-- **Empty brackets** are two tokens. -/
theorem leads_brackets (hbrackets : IsBrackets c d opening closing) (hstops : StopsSkip rest)
    (hindent : indents.headD (-1) < column) :
    Leads ⟨c :: d :: '\n' :: (Render.blanks m ++ rest), column, tokens, indents, keyAllowed⟩
      ⟨Render.blanks m ++ rest, 0, closing :: opening :: tokens, indents, true⟩ := by
  intro line index hindex
  let p : Spot := ⟨c :: d :: '\n' :: (Render.blanks m ++ rest), column, tokens, indents, keyAllowed⟩
  have hbehind := (reaches_insideBrackets (p := p) hbrackets rfl hindent line index).trans
    (reaches_behindBrackets hbrackets p ('\n' :: (Render.blanks m ++ rest)) line index)
  refine ⟨line + 1, index + 3, Nat.zero_le _, hbehind.trans ?_⟩
  refine Scanner.reaches_of_settle ?_ (Nat.le_succ _)
  rw [Scanner.settle_break rfl hstops (stale_ownKey p line index) rfl, settle_scanner hstops,
    Nat.zero_add]
  rfl

end

end Spot

end ChainMigration.Yaml
