import ChainMigration.Proofs.Composition
import ChainMigration.Proofs.RenderedLines

/-! # Rendered documents read back

A written mapping is rendered as a document that stands for it (`Document.ofChars?_render`): its
characters are all printable, so that they reach the scanner as they are, and what is scanned and
composed is the mapping itself. -/

namespace ChainMigration.Yaml

variable {cs t : List Char} {indent n : Nat}

/-! ### Printable characters -/

/-- The text is shown as it is. -/
def IsShown (cs : List Char) : Prop := ∀ c ∈ cs, isPrintable c = true

instance (cs : List Char) : Decidable (IsShown cs) :=
  decidable_of_iff (cs.all isPrintable = true) List.all_eq_true

theorem isShown_append {xs ys : List Char} : IsShown (xs ++ ys) ↔ IsShown xs ∧ IsShown ys :=
  List.forall_mem_append

theorem isShown_cons {c : Char} : IsShown (c :: cs) ↔ isPrintable c = true ∧ IsShown cs :=
  List.forall_mem_cons

theorem isShown_nil : IsShown [] := nofun

theorem isShown_blanks (k : Nat) : IsShown (Render.blanks k) := by
  intro c hc
  rw [(List.mem_replicate.mp hc).2]
  decide

theorem IsName.isShown (h : IsName cs) : IsShown cs := by
  intro c hc
  have hletter := h.letters c hc
  simp only [Bool.or_eq_true, beq_iff_eq] at hletter
  obtain hlower | rfl := hletter
  · have hrange := toNat_of_isLower hlower
    simp [isPrintable]
    omega
  · decide

theorem Source.ofChars?_of_isShown (h : IsShown cs) : Source.ofChars? cs = some cs := by
  have hallowed : cs.all isAllowed = true := by
    rw [List.all_eq_true]
    intro c hc
    have hprintable := h c hc
    simp [isPrintable, isAllowed] at hprintable ⊢
    omega
  have hmark : cs.head? ≠ some byteOrderMark := by
    intro hhead
    exact absurd (h _ (List.mem_of_mem_head? hhead)) (by decide)
  have hunify : Source.unifyBreaks cs = cs := by
    clear hallowed hmark
    induction cs with
    | nil => rfl
    | cons c cs ih =>
      obtain ⟨hc, hcs⟩ := isShown_cons.mp h
      have hreturn : c ≠ '\r' := by
        rintro rfl
        exact absurd hc (by decide)
      have hnext : c.toNat ≠ 0x85 := by
        intro hn
        simp [isPrintable, hn] at hc
      rw [Source.unifyBreaks]
      · rw [ih hcs, if_neg hnext]
      · exact fun _ heq => absurd heq hreturn
      · exact fun heq => absurd heq hreturn
  rw [Source.ofChars?, if_pos hallowed, if_neg hmark, hunify]

/-! ### Printable lines -/

namespace Render

theorem isShown_hexDigits (n : Nat) : IsShown ((Nat.toDigits 16 n).map Char.toUpper) := by
  have hdigit : ∀ v < 16, isPrintable (Nat.digitChar v).toUpper = true := by decide
  induction n using Nat.strongRecOn with
  | ind n ih =>
    rw [Nat.toDigits_eq_if (by decide)]
    split
    · next hlt => exact isShown_cons.mpr ⟨hdigit n hlt, isShown_nil⟩
    · rw [List.map_append, isShown_append]
      exact ⟨ih (n / 16) (by omega),
        isShown_cons.mpr ⟨hdigit (n % 16) (Nat.mod_lt _ (by decide)), isShown_nil⟩⟩

theorem isShown_escape (c : Char) : IsShown (escape c) := by
  have hzeros (k : Nat) : IsShown (List.replicate k '0') := by
    intro d hd
    rw [(List.mem_replicate.mp hd).2]
    decide
  have hnumber (mark : Char) (k : Nat) (hmark : isPrintable mark = true) :
      IsShown ('\\' :: mark :: .replicate k '0' ++ (Nat.toDigits 16 c.toNat).map Char.toUpper) :=
    isShown_append.mpr ⟨isShown_cons.mpr ⟨by decide, isShown_cons.mpr ⟨hmark, hzeros k⟩⟩,
      isShown_hexDigits _⟩
  have hletter (e : Char) (he : isPrintable e = true) : IsShown ['\\', e] :=
    isShown_cons.mpr ⟨by decide, isShown_cons.mpr ⟨he, isShown_nil⟩⟩
  unfold escape
  split
  case h_15 =>
    split
    · exact hnumber 'x' _ (by decide)
    · split
      · exact hnumber 'u' _ (by decide)
      · exact hnumber 'U' _ (by decide)
  all_goals exact hletter _ (by decide)

theorem isShown_doubleQuotedChar (c : Char) : IsShown (doubleQuotedChar c) := by
  rw [doubleQuotedChar]
  split
  · exact isShown_escape c
  · next hescape =>
    simp only [Bool.or_eq_true, Bool.not_eq_true', not_or, Bool.not_eq_false] at hescape
    exact isShown_cons.mpr ⟨hescape.1.1.1, isShown_nil⟩

theorem isShown_singleQuotedChars (h : IsShown cs) (afterBreak : Bool) :
    IsShown (singleQuotedChars indent afterBreak cs) := by
  have hblanks (b : Bool) : IsShown (if b then blanks indent else []) := by
    split
    · exact isShown_blanks _
    · exact isShown_nil
  induction cs generalizing afterBreak with
  | nil => exact hblanks afterBreak
  | cons c cs ih =>
    obtain ⟨hc, hcs⟩ := isShown_cons.mp h
    rw [singleQuotedChars]
    split
    · exact isShown_cons.mpr ⟨hc, ih hcs true⟩
    · refine isShown_append.mpr ⟨isShown_append.mpr ⟨hblanks afterBreak, ?_⟩, ih hcs false⟩
      split
      · decide
      · exact isShown_cons.mpr ⟨hc, isShown_nil⟩

theorem isShown_literalLines (h : IsShown cs) (afterBreak : Bool) :
    IsShown (literalLines indent afterBreak cs) := by
  induction cs generalizing afterBreak with
  | nil => exact isShown_nil
  | cons c cs ih =>
    obtain ⟨hc, hcs⟩ := isShown_cons.mp h
    rw [literalLines]
    split
    · exact isShown_cons.mpr ⟨hc, ih hcs true⟩
    · refine isShown_append.mpr ⟨?_, isShown_cons.mpr ⟨hc, ih hcs false⟩⟩
      split
      · exact isShown_blanks _
      · exact isShown_nil

theorem isShown_literal (h : IsShown cs) : IsShown (literal indent cs) := by
  have hindentation : IsShown (indentationSign cs) := by
    rw [BlockScalar.indentationSign_eq]
    split <;> decide
  have hchomping : IsShown (chompingSign cs) := by
    obtain ⟨chomping, hsign⟩ := BlockScalar.exists_chompingSign cs
    rw [hsign]
    cases chomping <;> decide
  have hending : IsShown (if cs.getLast?.any isBreak then [] else ['\n']) := by
    split <;> decide
  simp only [literal, List.cons_append, isShown_cons, isShown_append]
  exact ⟨by decide, ⟨⟨⟨hindentation, hchomping⟩, by decide⟩, isShown_literalLines h true⟩, hending⟩

/-- **The characters of a scalar are printable** in the style that holds it. -/
theorem isShown_scalar {style : ScalarStyle} (hholds : style.Holds cs) :
    IsShown (scalar indent style cs) := by
  have hbreak : IsShown ['\n'] := by decide
  cases style with
  | plain =>
    exact isShown_append.mpr
      ⟨(ScalarStyle.isPlain_of_allowsPlain hholds.1 hholds.2).printable, hbreak⟩
  | singleQuoted =>
    have hchars := (ScalarStyle.isSingle_of_allowsSingle hholds.1 hholds.2).printable
    exact isShown_append.mpr ⟨isShown_cons.mpr ⟨by decide, isShown_singleQuotedChars hchars false⟩,
      by decide⟩
  | doubleQuoted =>
    have hchars : IsShown (cs.flatMap doubleQuotedChar) := by
      intro c hc
      obtain ⟨d, -, hd⟩ := List.mem_flatMap.mp hc
      exact isShown_doubleQuotedChar d c hd
    exact isShown_append.mpr ⟨isShown_cons.mpr ⟨by decide, hchars⟩, by decide⟩
  | literal => exact isShown_literal hholds.printable_of_literal
  | folded => exact hholds.elim

/-- A value is shown behind a key and behind a dash. -/
structure Shown (v : Node) : Prop where
  afterKey (n : Nat) : IsShown (afterKey n v)
  afterDash (n : Nat) : IsShown (afterDash n v)

theorem isShown_itemLines {items : List Node} (h : ∀ item ∈ items, Shown item) (n : Nat) :
    IsShown (itemLines n items) := by
  induction items with
  | nil => exact isShown_nil
  | cons item items ih =>
    obtain ⟨hitem, hitems⟩ := List.forall_mem_cons.mp h
    simp only [itemLines, isShown_append, isShown_cons]
    exact ⟨⟨isShown_blanks n, by decide, hitem.afterDash n⟩, ih hitems⟩

theorem isShown_entryLines {settings : List (String × Node)}
    (hnames : ∀ s ∈ settings, IsName s.1.toList) (h : ∀ s ∈ settings, Shown s.2) (n : Nat) :
    IsShown (entryLines n (Node.named settings)) := by
  induction settings with
  | nil => exact isShown_nil
  | cons setting settings ih =>
    obtain ⟨hname, hnames⟩ := List.forall_mem_cons.mp hnames
    obtain ⟨hsetting, hsettings⟩ := List.forall_mem_cons.mp h
    have hlater := ih hnames hsettings
    simp only [Node.named, List.map_cons, Node.plain, entryLines, isShown_append, isShown_cons]
    exact ⟨⟨⟨isShown_blanks n, hname.isShown⟩, by decide, hsetting.afterKey n⟩, hlater⟩

/-- **The lines of a written node are printable.** -/
theorem shown_of_written {v : Node} (h : v.Written) : Shown v := by
  have hdrop {xs : List Char} (k : Nat) (hxs : IsShown xs) : IsShown (xs.drop k) :=
    fun c hc => hxs c (List.mem_of_mem_drop hc)
  induction h with
  | scalar hholds =>
    exact ⟨fun n => isShown_cons.mpr ⟨by decide, isShown_scalar hholds⟩,
      fun n => isShown_cons.mpr ⟨by decide, isShown_scalar hholds⟩⟩
  | @sequence items hitems ih =>
    cases items with
    | nil =>
      have hbrackets : IsShown [' ', '[', ']', '\n'] := by decide
      exact ⟨fun _ => hbrackets, fun _ => hbrackets⟩
    | cons item items =>
      exact ⟨fun n => isShown_cons.mpr ⟨by decide, isShown_itemLines ih n⟩,
        fun n => isShown_cons.mpr ⟨by decide, hdrop _ (isShown_itemLines ih _)⟩⟩
  | @mapping settings hnames hvalues ih =>
    cases settings with
    | nil =>
      have hbrackets : IsShown [' ', '\x7b', '\x7d', '\n'] := by decide
      exact ⟨fun _ => hbrackets, fun _ => hbrackets⟩
    | cons setting settings =>
      exact ⟨fun n => isShown_cons.mpr ⟨by decide, isShown_entryLines hnames ih _⟩,
        fun n => isShown_cons.mpr ⟨by decide, hdrop _ (isShown_entryLines hnames ih _)⟩⟩

end Render

/-! ### Documents -/

/-- What is scanned to the end of a document: the block that is still open ends there. -/
theorem Scanner.run_of_leads {tokens : List Token}
    (h : Spot.Leads ⟨cs, 0, [], [], true⟩ ⟨[], 0, tokens, [0], true⟩) :
    (run (cs.length + 1) (.start cs)).map (·.tokens) = some (.blockEnd :: tokens) := by
  obtain ⟨line, index, -, steps, hsteps, hrun⟩ := h 0 0 (Nat.le_refl 0)
  have hfuel : cs.length + 1 = cs.length - steps + 1 + steps := by
    have : steps ≤ cs.length := Nat.le_trans (Nat.le_add_right steps _) hsteps
    omega
  have hstart : Scanner.start cs = Spot.scanner ⟨cs, 0, [], [], true⟩ 0 0 := rfl
  have hsettle : (Spot.scanner ⟨[], 0, tokens, [0], true⟩ line index).settle =
      some (Spot.scanner ⟨[], 0, tokens, [0], true⟩ line index) :=
    Spot.settle_scanner (m := 0) stopsSkip_nil line index
  rw [hstart, hfuel, hrun, run_eq, hsettle]
  rfl

section

variable {settings : List (String × Node)}

/-- **The lines of a mapping are cut into its tokens.** -/
theorem Token.ofChars?_entryLines (hnames : ∀ s ∈ settings, IsName s.1.toList)
    (hvalues : ∀ s ∈ settings, s.2.Written) (hne : settings ≠ []) :
    Token.ofChars? (Render.entryLines 0 (Node.named settings)) =
      some ((Node.mapping (Node.named settings)).tokens false) := by
  have hshown := Render.isShown_entryLines hnames
    (fun s hs => Render.shown_of_written (hvalues s hs)) 0
  obtain ⟨setting, settings, rfl⟩ := List.exists_cons_of_ne_nil hne
  obtain ⟨hname, hnames⟩ := List.forall_mem_cons.mp hnames
  obtain ⟨hvalue, hvalues⟩ := List.forall_mem_cons.mp hvalues
  have hend : Dedented 0 [] := Or.inl rfl
  have hentry := Spot.leads_entry [] [] hname hvalue hvalue.scanned
    (Spot.dedented_entryLines hnames hend) (Or.inr ⟨rfl, by decide, rfl⟩)
  have hentries := Spot.leads_entries ((setting.2.tokens true).reverse ++
    [.value, .scalar .plain setting.1, .key, .blockMapping]) [] hnames hvalues
    (fun s hs => (hvalues s hs).scanned) hend
  have hrun := Scanner.run_of_leads (hentry.trans hentries)
  have hlines : setting.1.toList ++ ':' :: Render.afterKey 0 setting.2 ++
      (Render.entryLines 0 (Node.named settings) ++ []) =
        Render.entryLines 0 (Node.named (setting :: settings)) := by
    simp [Node.named, Node.plain, Render.entryLines, Render.blanks]
  rw [hlines] at hrun
  obtain ⟨s, hs, htokens⟩ := Option.map_eq_some_iff.mp hrun
  rw [Token.ofChars?, Source.ofChars?_of_isShown hshown, Option.bind_eq_bind, Option.bind_some, hs]
  simp [htokens, Node.tokens, Node.named, Node.plain, Node.entryTokens]

/-- **A mapping is rendered as a document** that stands for it. -/
theorem Document.ofChars?_render (hnames : ∀ s ∈ settings, IsName s.1.toList)
    (hvalues : ∀ s ∈ settings, s.2.Written) (hne : settings ≠ []) :
    Document.ofChars? (Node.mapping (Node.named settings)).render.toList =
      some ⟨.mapping (Node.named settings), []⟩ := by
  have hdocument := Composer.document_tokens (.mapping hnames hvalues)
  rw [Node.render, String.toList_ofList, Document.ofChars?,
    Token.ofChars?_entryLines hnames hvalues hne]
  simp [hdocument]

end

end ChainMigration.Yaml
