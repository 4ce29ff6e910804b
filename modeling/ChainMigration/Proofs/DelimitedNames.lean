import ChainMigration.Database.Statement
import ChainMigration.Proofs.InsertColumns

/-! # Names between quotes

The name of a foreign table is any text that is configured, and it goes into the texts of
statements. There it is read as delimited identifiers: an identifier runs from a double quote to the
next one that is not doubled, a doubled one stands for one quote, and single dots part identifiers
(`Sql.readIdentifiers?`).

A name is written part by part (`toList_delimited`), and each part is read back from between its
quotes, whatever quotes and dots the name has (`Sql.readIdentifiers?_append`). So nothing of a
name is read as anything else of a statement, which is `foreignTable_delimited`. -/

namespace ChainMigration

namespace Sql

/-! ### Reading identifiers -/

/-- Reads an identifier behind its first quote: its content, and the text behind its last quote. -/
def readDelimited? : List Char → Option (List Char × List Char)
  | '"' :: '"' :: cs => (readDelimited? cs).map fun (content, rest) => ('"' :: content, rest)
  | '"' :: cs => some ([], cs)
  | c :: cs => (readDelimited? cs).map fun (content, rest) => (c :: content, rest)
  | [] => none

theorem readDelimited?_doubled (cs : List Char) : readDelimited? ('"' :: '"' :: cs) =
    (readDelimited? cs).map fun (content, rest) => ('"' :: content, rest) := by
  rw [readDelimited?]

theorem readDelimited?_last {rest : List Char} (h : ∀ cs, rest ≠ '"' :: cs) :
    readDelimited? ('"' :: rest) = some ([], rest) := by
  rw [readDelimited?]
  exact h

theorem readDelimited?_cons {c : Char} (h : c ≠ '"') (cs : List Char) :
    readDelimited? (c :: cs) =
      (readDelimited? cs).map fun (content, rest) => (c :: content, rest) := by
  rw [readDelimited?]
  · rintro cs rfl
    exact absurd rfl h
  · exact h

theorem length_lt_of_readDelimited? {text content rest : List Char}
    (h : readDelimited? text = some (content, rest)) : rest.length < text.length := by
  induction text using readDelimited?.induct generalizing content with
  | case1 cs ih =>
    rw [readDelimited?_doubled] at h
    obtain ⟨⟨content', rest'⟩, hfound, heq⟩ := Option.map_eq_some_iff.mp h
    cases heq
    exact Nat.lt_succ_of_lt (Nat.lt_succ_of_lt (ih hfound))
  | case2 rest' hrest =>
    rw [readDelimited?_last hrest] at h
    cases h
    exact Nat.lt_succ_self _
  | case3 c cs _ hc ih =>
    rw [readDelimited?_cons hc] at h
    obtain ⟨⟨content', rest'⟩, hfound, heq⟩ := Option.map_eq_some_iff.mp h
    cases heq
    exact Nat.lt_succ_of_lt (ih hfound)
  | case4 => cases h

/-- Reads identifiers with single dots between them: their contents, and the text behind them. -/
def readIdentifiers? : List Char → Option (List (List Char) × List Char)
  | '"' :: cs =>
    match _h : readDelimited? cs with
    | some (content, '.' :: '"' :: more) =>
      (readIdentifiers? ('"' :: more)).map fun (contents, rest) => (content :: contents, rest)
    | some (content, rest) => some ([content], rest)
    | none => none
  | _ => none
termination_by text => text.length
decreasing_by
  have hlt := length_lt_of_readDelimited? _h
  simp only [List.length_cons] at hlt ⊢
  omega

theorem readIdentifiers?_dot {cs content more : List Char}
    (h : readDelimited? cs = some (content, '.' :: '"' :: more)) : readIdentifiers? ('"' :: cs) =
      (readIdentifiers? ('"' :: more)).map fun (contents, rest) => (content :: contents, rest) := by
  rw [readIdentifiers?]
  split
  · next hread =>
    cases h.symm.trans hread
    rfl
  · next hdot hread =>
    cases h.symm.trans hread
    exact absurd rfl (hdot more)
  · next hread => cases h.symm.trans hread

theorem readIdentifiers?_last {cs content rest : List Char}
    (h : readDelimited? cs = some (content, rest)) (hdot : rest.head? ≠ some '.') :
    readIdentifiers? ('"' :: cs) = some ([content], rest) := by
  rw [readIdentifiers?]
  split
  · next hread =>
    cases h.symm.trans hread
    exact absurd rfl hdot
  · next hread =>
    cases h.symm.trans hread
    rfl
  · next hread => cases h.symm.trans hread

/-! ### Writing identifiers -/

/-- A character between double quotes. -/
def doubled (c : Char) : List Char := if c = '"' then ['"', '"'] else [c]

/-- A text as a delimited identifier. -/
def identifier (content : List Char) : List Char := '"' :: (content.flatMap doubled ++ ['"'])

/-- Texts as delimited identifiers with dots between them. -/
def identifiers (contents : List (List Char)) : List Char :=
  ['.'].intercalate (contents.map identifier)

theorem identifier_append (content rest : List Char) :
    identifier content ++ rest = '"' :: (content.flatMap doubled ++ '"' :: rest) := by
  rw [identifier, List.cons_append, List.append_assoc]
  rfl

theorem identifiers_singleton (content : List Char) :
    identifiers [content] = identifier content := List.intercalate_singleton

theorem identifiers_cons (content : List Char) {contents : List (List Char)} (h : contents ≠ []) :
    identifiers (content :: contents) = identifier content ++ '.' :: identifiers contents := by
  obtain ⟨next, contents, rfl⟩ := List.exists_cons_of_ne_nil h
  rw [identifiers, List.map_cons, List.map_cons, List.intercalate_cons_cons, List.append_assoc]
  rfl

theorem identifiers_cons_cons (c : Char) (content : List Char) (contents : List (List Char)) :
    identifiers ((c :: content) :: contents) =
      '"' :: (doubled c ++ (identifiers (content :: contents)).tail) := by
  have hfirst : identifier (c :: content) = '"' :: (doubled c ++ (identifier content).tail) := by
    rw [identifier, List.flatMap_cons, List.append_assoc]
    rfl
  cases contents with
  | nil => rw [identifiers_singleton, identifiers_singleton, hfirst]
  | cons next contents =>
    rw [identifiers_cons _ (List.cons_ne_nil _ _), identifiers_cons _ (List.cons_ne_nil _ _),
      hfirst, identifier, List.cons_append, List.append_assoc]
    rfl

theorem cons_tail_identifiers {contents : List (List Char)} (h : contents ≠ []) :
    '"' :: (identifiers contents).tail = identifiers contents := by
  obtain ⟨content, contents, rfl⟩ := List.exists_cons_of_ne_nil h
  cases contents with
  | nil => rw [identifiers_singleton, identifier, List.tail_cons]
  | cons next contents =>
    rw [identifiers_cons _ (List.cons_ne_nil _ _), identifier, List.cons_append, List.tail_cons]

/-! ### What is written is read -/

/-- **An identifier is read back**, unless a further quote follows it. -/
theorem readDelimited?_append (content rest : List Char) (h : ∀ cs, rest ≠ '"' :: cs) :
    readDelimited? (content.flatMap doubled ++ '"' :: rest) = some (content, rest) := by
  induction content with
  | nil => exact readDelimited?_last h
  | cons c content ih =>
    rw [List.flatMap_cons, List.append_assoc, doubled]
    by_cases hc : c = '"'
    · rw [if_pos hc, List.cons_append, List.singleton_append, readDelimited?_doubled, ih, hc]
      rfl
    · rw [if_neg hc, List.singleton_append, readDelimited?_cons hc, ih]
      rfl

/-- **Identifiers are read back**, as many as there are, and the text behind them is left. -/
theorem readIdentifiers?_append {contents : List (List Char)} (hne : contents ≠ [])
    {rest : List Char} (hquote : rest.head? ≠ some '"') (hdot : rest.head? ≠ some '.') :
    readIdentifiers? (identifiers contents ++ rest) = some (contents, rest) := by
  induction contents with
  | nil => exact absurd rfl hne
  | cons content contents ih =>
    cases contents with
    | nil =>
      have hread := readDelimited?_append content rest
        fun cs hcs => hquote (by rw [hcs, List.head?_cons])
      rw [identifiers_singleton, identifier_append, readIdentifiers?_last hread hdot]
    | cons next contents =>
      have hnext := List.cons_ne_nil next contents
      have hread := readDelimited?_append content
        ('.' :: '"' :: ((identifiers (next :: contents)).tail ++ rest)) nofun
      rw [identifiers_cons _ hnext, List.append_assoc, List.cons_append, identifier_append,
        ← cons_tail_identifiers hnext, List.cons_append, readIdentifiers?_dot hread,
        ← List.cons_append, cons_tail_identifiers hnext, ih hnext]
      rfl

end Sql

/-! ### Names -/

theorem delimitedRest_cons {c : Char} (h : c ≠ '.') (cs : List Char) :
    delimitedRest (c :: cs) = Sql.doubled c ++ delimitedRest cs := by
  by_cases hc : c = '"'
  · rw [hc]
    rfl
  · rw [Sql.doubled, if_neg hc, delimitedRest]
    · rfl
    · exact h
    · exact hc

theorem cons_delimitedRest (cs : List Char) :
    '"' :: delimitedRest cs = Sql.identifiers (cs.splitOn '.') := by
  induction cs with
  | nil => rfl
  | cons c cs ih =>
    have hne := List.splitOn_ne_nil '.' cs
    rw [List.splitOn_cons_eq_if_modifyHead]
    by_cases hc : c = '.'
    · rw [if_pos (beq_iff_eq.mpr hc), Sql.identifiers_cons _ hne, ← ih, hc]
      rfl
    · rw [if_neg (by rwa [beq_iff_eq]), delimitedRest_cons hc]
      obtain ⟨content, contents, hparts⟩ := List.exists_cons_of_ne_nil hne
      rw [hparts] at ih ⊢
      rw [List.modifyHead_cons, Sql.identifiers_cons_cons, ← ih, List.tail_cons]

/-- **A name is written** as the identifiers of its parts. -/
theorem toList_delimited (name : String) :
    (delimited name).toList = Sql.identifiers (name.toList.splitOn '.') := by
  rw [delimited, String.toList_ofList, cons_delimitedRest]

/-! ### Statements that name a table -/

namespace Sql

/-- A quoted text or a comment may begin with the character. -/
def opensQuotation (c : Char) : Bool := ['"', '\'', '$', '-', '/'].contains c

/-- The text of a statement before its first double quote, the contents of the identifiers that
begin there, and the text behind them. -/
def cutIdentifiers? (text : List Char) : Option (List Char × List (List Char) × List Char) :=
  (readIdentifiers? (text.dropWhile (· ≠ '"'))).map fun (contents, rest) =>
    (text.takeWhile (· ≠ '"'), contents, rest)

/-- **A statement names a table** between two texts: for every name they are the same, the parts of
the name are read between them, no quoted text or comment is open there, and nothing else stands in
double quotes. -/
structure NamesTable (sql : String → String) (before after : String) : Prop where
  text : ∀ name, sql name = before ++ delimited name ++ after
  read : ∀ name, cutIdentifiers? (sql name).toList =
    some (before.toList, name.toList.splitOn '.', after.toList)
  plain : ∀ c ∈ before.toList, opensQuotation c = false
  unquoted : '"' ∉ after.toList

theorem cutIdentifiers?_append {before after : List Char} {contents : List (List Char)}
    (hbefore : '"' ∉ before) (hne : contents ≠ []) (hquote : after.head? ≠ some '"')
    (hdot : after.head? ≠ some '.') :
    cutIdentifiers? (before ++ identifiers contents ++ after) = some (before, contents, after) := by
  have hall : ∀ c ∈ before, decide (c ≠ '"') = true := by
    intro c hc
    exact decide_eq_true fun h => hbefore (h ▸ hc)
  have htext : before ++ identifiers contents ++ after =
      before ++ '"' :: ((identifiers contents).tail ++ after) := by
    rw [← List.cons_append, cons_tail_identifiers hne, List.append_assoc]
  rw [cutIdentifiers?, htext, List.dropWhile_append_of_pos hall, List.takeWhile_append_of_pos hall,
    List.dropWhile_cons_of_neg (by decide), List.takeWhile_cons_of_neg (by decide),
    ← List.cons_append, cons_tail_identifiers hne, readIdentifiers?_append hne hquote hdot,
    List.append_nil]
  rfl

theorem namesTable_of_text {sql : String → String} {before after : String}
    (htext : ∀ name, sql name = before ++ delimited name ++ after)
    (hopens : before.toList.any opensQuotation = false) (hunquoted : '"' ∉ after.toList)
    (hdot : after.toList.head? ≠ some '.') : NamesTable sql before after := by
  have hplain : ∀ c ∈ before.toList, opensQuotation c = false := fun c hc =>
    Bool.eq_false_iff.mpr (List.any_eq_false.mp hopens c hc)
  have hbefore : '"' ∉ before.toList := fun h => absurd (hplain _ h) (by decide)
  have hquote : after.toList.head? ≠ some '"' := fun h => hunquoted (List.mem_of_head? h)
  refine ⟨htext, fun name => ?_, hplain, hunquoted⟩
  rw [htext, String.toList_append, String.toList_append, toList_delimited]
  exact cutIdentifiers?_append hbefore (List.splitOn_ne_nil _ _) hquote hdot

theorem exists_namesTable_lastPlace :
    ∃ before after, NamesTable (fun name => (Statement.lastPlace name).sql) before after := by
  refine ⟨_, "", namesTable_of_text (fun name => (String.append_empty).symm) ?_ ?_ ?_⟩
  · rw [toList_of_eq_ofList rfl]
    decide +kernel
  · decide +kernel
  · decide +kernel

theorem exists_namesTable_copyPage : ∃ before after, ∀ page,
    NamesTable (fun name => (Statement.copyPage name page).sql) before after := by
  refine ⟨_, _, fun page => namesTable_of_text (fun name => rfl) ?_ ?_ ?_⟩
  · rw [toList_of_eq_ofList rfl]
    decide +kernel
  · rw [toList_of_eq_ofList rfl]
    decide +kernel
  · rw [toList_of_eq_ofList rfl]
    decide +kernel

end Sql

/-- **A name cannot leave its quotes.** Any name is written as one delimited identifier for each of
its parts between dots, with single dots between them, and is read as these identifiers and nothing
else: their contents are the parts. So different names are written differently. In the two
statements that name a foreign table the identifiers stand between texts that are the same for all
names. -/
theorem foreignTable_delimited :
    (∀ name, (delimited name).toList = Sql.identifiers (name.toList.splitOn '.') ∧
      Sql.readIdentifiers? (delimited name).toList = some (name.toList.splitOn '.', [])) ∧
    (∀ name other, delimited name = delimited other ↔ name = other) ∧
    (∃ before after, Sql.NamesTable (fun name => (Statement.lastPlace name).sql) before after) ∧
    ∃ before after, ∀ page,
      Sql.NamesTable (fun name => (Statement.copyPage name page).sql) before after := by
  have hread (name : String) :
      Sql.readIdentifiers? (delimited name).toList = some (name.toList.splitOn '.', []) := by
    rw [toList_delimited, ← List.append_nil (Sql.identifiers _)]
    exact Sql.readIdentifiers?_append (List.splitOn_ne_nil _ _) nofun nofun
  refine ⟨fun name => ⟨toList_delimited name, hread name⟩,
    fun name other => ⟨fun h => ?_, congrArg delimited⟩,
    Sql.exists_namesTable_lastPlace, Sql.exists_namesTable_copyPage⟩
  have hboth := (hread name).symm.trans (h ▸ hread other)
  have hparts : name.toList.splitOn '.' = other.toList.splitOn '.' :=
    (Prod.mk.inj (Option.some.inj hboth)).1
  have hname : ['.'].intercalate (name.toList.splitOn '.') = name.toList :=
    List.intercalate_splitOn '.'
  rw [← String.toList_inj, ← hname, hparts, List.intercalate_splitOn]

end ChainMigration
