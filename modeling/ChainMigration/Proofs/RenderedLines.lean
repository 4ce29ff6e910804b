import ChainMigration.Proofs.LiteralText
import ChainMigration.Proofs.QuotedText

/-! # Rendered nodes are scanned

The lines that a written node is rendered as lead to its tokens, whatever less indented line follows
(`Node.Written.scanned`). A value stands behind a key or behind a dash, and in both places it may
begin a block of its own. -/

namespace ChainMigration.Yaml

variable {cs t : List Char} {column n : Nat} {tokens : List Token} {indents is : List Int}
  {keyAllowed : Bool}

/-! ### Scalars -/

namespace ScalarStyle

variable {style : ScalarStyle}

theorem Holds.printable_of_literal (h : literal.Holds cs) : ∀ d ∈ cs, isPrintable d = true := by
  have hallows := h.2
  simp only [allowsLiteral, Bool.not_eq_true', Bool.or_eq_false_iff, hasSpecial, List.any_eq_false,
    Bool.not_eq_false] at hallows
  exact hallows.1.1

end ScalarStyle

namespace Spot

/-- **A scalar is read** in the style that it is written in. -/
theorem leads_scalar (tokens : List Token) (indents : List Int) (keyAllowed : Bool)
    {style : ScalarStyle} (hholds : style.Holds cs) (ht : Dedented n t)
    (hindent : indents.headD (-1) = n) (hcolumn : n < column) :
    Leads ⟨Render.scalar (n + 2) style cs ++ t, column, tokens, indents, keyAllowed⟩
      ⟨t, 0, .scalar style (.ofList cs) :: tokens, indents, true⟩ := by
  have hinside : indents.headD (-1) < column := by omega
  cases style with
  | plain =>
    have hplain := ScalarStyle.isPlain_of_allowsPlain hholds.1 hholds.2
    have hlines : Render.scalar (n + 2) .plain cs ++ t = cs ++ '\n' :: t := by simp [Render.scalar]
    rw [hlines]
    exact leads_plain hplain ht hindent hcolumn
  | singleQuoted =>
    have hlines : Render.scalar (n + 2) .singleQuoted cs ++ t =
        '\'' :: (Render.singleQuotedChars (n + 2) false cs ++ '\'' :: '\n' :: t) := by
      simp [Render.scalar]
    rw [hlines]
    exact leads_single (ScalarStyle.isSingle_of_allowsSingle hholds.1 hholds.2) ht hinside
      (Nat.succ_pos _)
  | doubleQuoted =>
    have hlines : Render.scalar (n + 2) .doubleQuoted cs ++ t =
        '\x22' :: (cs.flatMap Render.doubleQuotedChar ++ '\x22' :: '\n' :: t) := by
      simp [Render.scalar]
    rw [hlines]
    exact leads_double ht hinside
  | literal => exact leads_literal hholds.printable_of_literal hholds.1 ht hindent hcolumn
  | folded => exact hholds.elim

theorem stopsSkip_scalar {style : ScalarStyle} (hholds : style.Holds cs) (i : Nat) :
    StopsSkip (Render.scalar i style cs ++ t) := by
  cases style with
  | plain =>
    have hplain := ScalarStyle.isPlain_of_allowsPlain hholds.1 hholds.2
    obtain ⟨d, ds, rfl⟩ := List.exists_cons_of_ne_nil hplain.ne_nil
    rintro e ⟨⟩
    exact stopsSkip_of_isPlain hplain
  | folded => exact hholds.elim
  | _ => rintro e ⟨⟩; decide

end Spot

/-! ### Values -/

namespace Node

/-- A value is scanned behind a key whose mapping is indented by `n`, and behind the dash of an item
that is. -/
structure Scanned (v : Node) : Prop where
  afterKey (tokens : List Token) (is : List Int) (keyAllowed : Bool) {n column : Nat}
    {t : List Char} (ht : Dedented n t) (hcolumn : n < column) :
    Spot.Leads ⟨Render.afterKey n v ++ t, column, tokens, (n : Int) :: is, keyAllowed⟩
      ⟨t, 0, (v.tokens true).reverse ++ tokens, (n : Int) :: is, true⟩
  afterDash (tokens : List Token) (is : List Int) {n : Nat} {t : List Char} (ht : Dedented n t) :
    Spot.Leads ⟨Render.afterDash n v ++ t, n + 1, tokens, (n : Int) :: is, true⟩
      ⟨t, 0, (v.tokens false).reverse ++ tokens, (n : Int) :: is, true⟩

theorem Written.exists_afterDash {v : Node} (h : v.Written) (n : Nat) :
    ∃ rest, Render.afterDash n v = ' ' :: rest := by
  cases h with
  | scalar => exact ⟨_, rfl⟩
  | @sequence items =>
    cases items <;> exact ⟨_, rfl⟩
  | @mapping settings =>
    cases settings <;> exact ⟨_, rfl⟩

theorem Written.endsWord_afterKey {v : Node} (h : v.Written) (n : Nat) :
    endsWord (Render.afterKey n v ++ t) = true := by
  cases h with
  | scalar => rfl
  | @sequence items => cases items <;> rfl
  | @mapping settings => cases settings <;> rfl

end Node

theorem IsName.stopsSkip {name : List Char} (h : IsName name) (cs t : List Char) :
    StopsSkip (name ++ ':' :: cs ++ t) := by
  obtain ⟨d, ds, rfl, -, hd⟩ := h.exists_cons
  rintro e ⟨⟩
  exact stopsSkip_of_beginsLine hd

namespace Spot

open Node (named itemTokens entryTokens)

/-! ### Items -/

theorem dedented_itemLines (items : List Node) (ht : Dedented n t) :
    Dedented n (Render.itemLines n items ++ t) := by
  cases items with
  | nil => exact ht
  | cons item items =>
    refine Or.inr ⟨n, '-', Render.afterDash n item ++ Render.itemLines n items ++ t, Nat.le_refl n,
      by decide, ?_⟩
    simp [Render.itemLines]

/-- **An item is read**: its dash, which begins a block if it is indented further, and what
follows. -/
theorem leads_item (tokens : List Token) (is : List Int) {item : Node} (hwritten : item.Written)
    (hscanned : item.Scanned) (ht : Dedented n t) {opened : List Token}
    (hblock : indents = (n : Int) :: is ∧ opened = tokens ∨
      indents = is ∧ is.headD (-1) < n ∧ opened = .blockSequence :: tokens) :
    Leads ⟨'-' :: Render.afterDash n item ++ t, n, tokens, indents, true⟩
      ⟨t, 0, (item.tokens false).reverse ++ .blockEntry :: opened, (n : Int) :: is, true⟩ := by
  obtain ⟨rest, hrest⟩ := hwritten.exists_afterDash n
  have hafter := hscanned.afterDash (.blockEntry :: opened) is ht
  rw [hrest] at hafter ⊢
  obtain ⟨rfl, rfl⟩ | ⟨rfl, hindent, rfl⟩ := hblock
  · exact (leads_dash rfl).trans hafter
  · exact (leads_firstDash hindent).trans hafter

/-- **Items are read** line by line. -/
theorem leads_items (tokens : List Token) (is : List Int) {items : List Node}
    (hwritten : ∀ item ∈ items, item.Written) (hscanned : ∀ item ∈ items, item.Scanned)
    (ht : Dedented n t) :
    Leads ⟨Render.itemLines n items ++ t, 0, tokens, (n : Int) :: is, true⟩
      ⟨t, 0, (itemTokens items).reverse ++ tokens, (n : Int) :: is, true⟩ := by
  induction items generalizing tokens with
  | nil => exact Leads.refl _
  | cons item items ih =>
    obtain ⟨hw, hwritten⟩ := List.forall_mem_cons.mp hwritten
    obtain ⟨hs, hscanned⟩ := List.forall_mem_cons.mp hscanned
    have hstops := stopsSkip_cons (c := '-')
      (Render.afterDash n item ++ (Render.itemLines n items ++ t)) (by decide)
    have hblanks := leads_blanks n 0 tokens (n :: is) true hstops
    have hitem := leads_item tokens is hw hs (dedented_itemLines items ht) (Or.inl ⟨rfl, rfl⟩)
    have hlater := ih ((item.tokens false).reverse ++ .blockEntry :: tokens) hwritten hscanned
    rw [Nat.zero_add] at hblanks
    have := (hblanks.trans hitem).trans hlater
    simpa [Render.itemLines, itemTokens] using this

/-! ### Entries -/

theorem dedented_entryLines {settings : List (String × Node)}
    (hnames : ∀ s ∈ settings, IsName s.1.toList) (ht : Dedented n t) :
    Dedented n (Render.entryLines n (named settings) ++ t) := by
  cases settings with
  | nil => exact ht
  | cons setting settings =>
    obtain ⟨d, ds, hcons, -, hd⟩ := (hnames setting List.mem_cons_self).exists_cons
    refine Or.inr ⟨n, d, ds ++ ':' :: Render.afterKey n setting.2 ++
      Render.entryLines n (named settings) ++ t, Nat.le_refl n, hd, ?_⟩
    simp [named, Node.plain, Render.entryLines, hcons]

/-- **An entry is read**: its key, which begins a block if it is indented further, and its value. -/
theorem leads_entry (tokens : List Token) (is : List Int) {name : String} {v : Node}
    (hname : IsName name.toList) (hwritten : v.Written) (hscanned : v.Scanned) (ht : Dedented n t)
    {opened : List Token}
    (hblock : indents = (n : Int) :: is ∧ opened = tokens ∨
      indents = is ∧ is.headD (-1) < n ∧ opened = .blockMapping :: tokens) :
    Leads ⟨name.toList ++ ':' :: Render.afterKey n v ++ t, n, tokens, indents, true⟩
      ⟨t, 0, (v.tokens true).reverse ++ .value :: .scalar .plain name :: .key :: opened,
        (n : Int) :: is, true⟩ := by
  have hopened : indents.headD (-1) = n ∧ opened = tokens ∧ (n : Int) :: is = indents ∨
      indents.headD (-1) < n ∧ opened = .blockMapping :: tokens ∧
        (n : Int) :: is = (n : Int) :: indents := by
    obtain ⟨rfl, rfl⟩ | ⟨rfl, hindent, rfl⟩ := hblock
    · exact Or.inl ⟨rfl, rfl, rfl⟩
    · exact Or.inr ⟨hindent, rfl, rfl⟩
  have hkey := leads_key hname (hwritten.endsWord_afterKey n (t := t)) hopened
  have hcolumn : n < n + name.toList.length + 1 := by omega
  have hvalue := hscanned.afterKey (.value :: .scalar .plain name :: .key :: opened) is false ht
    hcolumn
  rw [String.ofList_toList] at hkey
  simpa using hkey.trans hvalue

/-- **Entries are read** line by line. -/
theorem leads_entries (tokens : List Token) (is : List Int) {settings : List (String × Node)}
    (hnames : ∀ s ∈ settings, IsName s.1.toList) (hwritten : ∀ s ∈ settings, s.2.Written)
    (hscanned : ∀ s ∈ settings, s.2.Scanned) (ht : Dedented n t) :
    Leads ⟨Render.entryLines n (named settings) ++ t, 0, tokens, (n : Int) :: is, true⟩
      ⟨t, 0, (entryTokens (named settings)).reverse ++ tokens, (n : Int) :: is, true⟩ := by
  induction settings generalizing tokens with
  | nil => exact Leads.refl _
  | cons setting settings ih =>
    obtain ⟨hname, hnames⟩ := List.forall_mem_cons.mp hnames
    obtain ⟨hw, hwritten⟩ := List.forall_mem_cons.mp hwritten
    obtain ⟨hs, hscanned⟩ := List.forall_mem_cons.mp hscanned
    have hstops : StopsSkip (setting.1.toList ++ ':' :: Render.afterKey n setting.2 ++
        (Render.entryLines n (named settings) ++ t)) := hname.stopsSkip _ _
    have hblanks := leads_blanks n 0 tokens (n :: is) true hstops
    have hentry := leads_entry tokens is hname hw hs (dedented_entryLines hnames ht)
      (Or.inl ⟨rfl, rfl⟩)
    have hlater := ih ((setting.2.tokens true).reverse ++
      .value :: .scalar .plain setting.1 :: .key :: tokens) hnames hwritten hscanned
    rw [Nat.zero_add] at hblanks
    have := (hblanks.trans hentry).trans hlater
    simpa [named, Node.plain, Render.entryLines, entryTokens, Node.tokens] using this

/-! ### Blocks of their own -/

theorem leads_line (column : Nat) (tokens : List Token) (indents : List Int) (keyAllowed : Bool)
    (ht : Dedented n t) :
    Leads ⟨'\n' :: t, column, tokens, indents, keyAllowed⟩ ⟨t, 0, tokens, indents, true⟩ := by
  obtain ⟨m, rest, rfl, hstops, -⟩ := ht.exists_blanks
  exact leads_break hstops

/-- **A list that is indented further is read** as a block. -/
theorem leads_innerItems (tokens : List Token) (is : List Int) {item : Node} {items : List Node}
    (hwritten : ∀ v ∈ item :: items, v.Written) (hscanned : ∀ v ∈ item :: items, v.Scanned)
    (ht : Dedented n t) :
    Leads ⟨'-' :: Render.afterDash (n + 2) item ++ (Render.itemLines (n + 2) items ++ t), n + 2,
        tokens, (n : Int) :: is, true⟩
      ⟨t, 0, .blockEnd :: (itemTokens (item :: items)).reverse ++ .blockSequence :: tokens,
        (n : Int) :: is, true⟩ := by
  obtain ⟨hw, hwritten⟩ := List.forall_mem_cons.mp hwritten
  obtain ⟨hs, hscanned⟩ := List.forall_mem_cons.mp hscanned
  have ht' : Dedented (n + 2) t := ht.mono (Nat.le_add_right n 2)
  have hinside : ((n : Int) :: is).headD (-1) < (n + 2 : Nat) := by
    rw [List.headD_cons]
    omega
  have hitem := leads_item tokens (n :: is) hw hs (dedented_itemLines items ht')
    (Or.inr ⟨rfl, hinside, rfl⟩)
  have hlater := leads_items
    ((item.tokens false).reverse ++ .blockEntry :: .blockSequence :: tokens) (n :: is) hwritten
    hscanned ht'
  have hclose := leads_close (i := n + 2) ((itemTokens items).reverse ++
    ((item.tokens false).reverse ++ .blockEntry :: .blockSequence :: tokens)) (n :: is) ht
    (by omega)
  simpa [itemTokens] using (hitem.trans hlater).trans hclose

/-- **A mapping that is indented further is read** as a block. -/
theorem leads_innerEntries (tokens : List Token) (is : List Int) {setting : String × Node}
    {settings : List (String × Node)}
    (hnames : ∀ s ∈ setting :: settings, IsName s.1.toList)
    (hwritten : ∀ s ∈ setting :: settings, s.2.Written)
    (hscanned : ∀ s ∈ setting :: settings, s.2.Scanned) (ht : Dedented n t) :
    Leads ⟨setting.1.toList ++ ':' :: Render.afterKey (n + 2) setting.2 ++
          (Render.entryLines (n + 2) (named settings) ++ t), n + 2, tokens, (n : Int) :: is, true⟩
      ⟨t, 0, .blockEnd :: (entryTokens (named (setting :: settings))).reverse ++
        .blockMapping :: tokens, (n : Int) :: is, true⟩ := by
  obtain ⟨hname, hnames⟩ := List.forall_mem_cons.mp hnames
  obtain ⟨hw, hwritten⟩ := List.forall_mem_cons.mp hwritten
  obtain ⟨hs, hscanned⟩ := List.forall_mem_cons.mp hscanned
  have ht' : Dedented (n + 2) t := ht.mono (Nat.le_add_right n 2)
  have hinside : ((n : Int) :: is).headD (-1) < (n + 2 : Nat) := by
    rw [List.headD_cons]
    omega
  have hentry := leads_entry tokens (n :: is) hname hw hs (dedented_entryLines hnames ht')
    (Or.inr ⟨rfl, hinside, rfl⟩)
  have hlater := leads_entries ((setting.2.tokens true).reverse ++
    .value :: .scalar .plain setting.1 :: .key :: .blockMapping :: tokens) (n :: is) hnames hwritten
    hscanned ht'
  have hclose := leads_close (i := n + 2) ((entryTokens (named settings)).reverse ++
    ((setting.2.tokens true).reverse ++
      .value :: .scalar .plain setting.1 :: .key :: .blockMapping :: tokens)) (n :: is) ht
    (by omega)
  simpa [named, Node.plain, entryTokens, Node.tokens] using (hentry.trans hlater).trans hclose

theorem leads_emptyBrackets {c d : Char} {opening closing : Token}
    (hbrackets : IsBrackets c d opening closing) (ht : Dedented n t)
    (hindent : indents.headD (-1) < column + 1) :
    Leads ⟨' ' :: c :: d :: '\n' :: t, column, tokens, indents, keyAllowed⟩
      ⟨t, 0, closing :: opening :: tokens, indents, true⟩ := by
  obtain ⟨m, rest, rfl, hstops, -⟩ := ht.exists_blanks
  have hblank := leads_blanks 1 column tokens indents keyAllowed
    (stopsSkip_cons (d :: '\n' :: (Render.blanks m ++ rest)) hbrackets.stopsSkip.1)
  exact hblank.trans (leads_brackets hbrackets hstops hindent)

theorem scanned_of_brackets {v : Node} {c d : Char} {opening closing : Token}
    (hbrackets : IsBrackets c d opening closing)
    (hkey : ∀ n, Render.afterKey n v = [' ', c, d, '\n'])
    (hdash : ∀ n, Render.afterDash n v = [' ', c, d, '\n'])
    (htokens : ∀ belowKey, v.tokens belowKey = [opening, closing]) : v.Scanned := by
  refine ⟨fun tokens is keyAllowed n column t ht hcolumn => ?_, fun tokens is n t ht => ?_⟩
  · rw [hkey, htokens]
    exact leads_emptyBrackets hbrackets ht (by rw [List.headD_cons]; omega)
  · rw [hdash, htokens]
    exact leads_emptyBrackets hbrackets ht (by rw [List.headD_cons]; omega)

end Spot

/-! ### Nodes -/

/-- **A written node is scanned** as its tokens behind a key and behind a dash. -/
theorem Node.Written.scanned {v : Node} (h : v.Written) : v.Scanned := by
  induction h with
  | @scalar style text hholds =>
    have hread (tokens : List Token) (is : List Int) (keyAllowed : Bool) {n column : Nat}
        {t : List Char} (ht : Dedented n t) (hcolumn : n < column + 1) :
        Spot.Leads ⟨' ' :: (Render.scalar (n + 2) style text.toList ++ t), column, tokens,
            (n : Int) :: is, keyAllowed⟩
          ⟨t, 0, .scalar style text :: tokens, (n : Int) :: is, true⟩ := by
      have hblank := Spot.leads_blanks 1 column tokens (n :: is) keyAllowed
        (Spot.stopsSkip_scalar (t := t) hholds (n + 2))
      have hscalar := Spot.leads_scalar tokens (n :: is) keyAllowed hholds ht rfl hcolumn
      rw [String.ofList_toList] at hscalar
      exact hblank.trans hscalar
    exact ⟨fun tokens is keyAllowed _ _ _ ht hcolumn =>
        hread tokens is keyAllowed ht (Nat.lt_succ_of_lt hcolumn),
      fun tokens is _ _ ht => hread tokens is true ht (by omega)⟩
  | @sequence items hitems ih =>
    cases items with
    | nil =>
      exact Spot.scanned_of_brackets .sequence (fun _ => rfl) (fun _ => rfl) fun _ => by
        rw [Node.tokens]
    | cons item items =>
      refine ⟨fun tokens is _ _ _ _ ht _ => ?_, fun tokens is n t ht => ?_⟩
      · exact (Spot.leads_line _ _ _ _ (Spot.dedented_itemLines _ ht)).trans
          (Spot.leads_items tokens is hitems ih ht)
      · have hblank := Spot.leads_blanks 1 (n + 1) tokens (n :: is) true (stopsSkip_cons (c := '-')
          (Render.afterDash (n + 2) item ++ (Render.itemLines (n + 2) items ++ t)) (by decide))
        have hinner := hblank.trans (Spot.leads_innerItems tokens is hitems ih ht)
        simpa [Render.afterDash, Render.itemLines, Render.blanks, Node.tokens] using hinner
  | @mapping settings hnames hvalues ih =>
    cases settings with
    | nil =>
      exact Spot.scanned_of_brackets .mapping (fun _ => rfl) (fun _ => rfl) fun _ => by
        rw [Node.named, List.map_nil, Node.tokens]
    | cons setting settings =>
      have hstops (n : Nat) (t : List Char) := (hnames setting List.mem_cons_self).stopsSkip
        (Render.afterKey (n + 2) setting.2) (Render.entryLines (n + 2) (Node.named settings) ++ t)
      refine ⟨fun tokens is keyAllowed n column t ht _ => ?_, fun tokens is n t ht => ?_⟩
      · have hline := Spot.leads_line column tokens (n :: is) keyAllowed
          (Spot.dedented_entryLines hnames (ht.mono (Nat.le_add_right n 2)))
        have hblanks := Spot.leads_blanks (n + 2) 0 tokens (n :: is) true (hstops n t)
        rw [Nat.zero_add] at hblanks
        have hinner := hblanks.trans (Spot.leads_innerEntries tokens is hnames hvalues ih ht)
        refine hline.trans ?_
        simpa [Render.entryLines, Node.named, Node.plain, Node.tokens] using hinner
      · have hblank := Spot.leads_blanks 1 (n + 1) tokens (n :: is) true (hstops n t)
        have hinner := hblank.trans (Spot.leads_innerEntries tokens is hnames hvalues ih ht)
        simpa [Render.afterDash, Render.entryLines, Render.blanks, Node.named, Node.plain,
          Node.tokens] using hinner

end ChainMigration.Yaml
