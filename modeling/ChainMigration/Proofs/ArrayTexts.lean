import ChainMigration.Proofs.InsertColumns
import Mathlib.Data.List.DropRight
import Mathlib.Data.List.Forall2

/-! # Storage keys as text

Each element of an access list has its own list of storage keys. Lists of different lengths do not
fit into one array, so an insert gets the storage keys of a row as the text of an array, in which
the keys stand between commas as they are. `Sql.readArray?` reads such a text as the database does:
items are between quotes or not, a backslash keeps the next character from its meaning, blanks
around items do not count, and a word without quotes may stand for null.

Keys that need no quotes are read back (`readArray?_braced`). For the converse there is no need to
follow what signs do in a text. Each of them leaves fewer marks than there are characters, and so
does everything else that is not part of an item, so a text that is no longer than its items with
commas between them has no signs (`not_isSign_of_readArray?`). Without signs, items are what stands
between commas. -/

namespace ChainMigration

namespace Sql

/-! ### Reading arrays -/

/-- A character in the text of an array that may have a meaning there, one that is kept from it by
quotes or a backslash, or a quote. -/
inductive ArrayMark
  | bare (c : Char)
  | kept (c : Char)
  | quote
deriving DecidableEq

/-- The marks of a text that begins between quotes or not. Quotes have to be closed, and a backslash
needs a character to keep. -/
def arrayMarks? : (quoted : Bool) → List Char → Option (List ArrayMark)
  | quoted, [] => if quoted then none else some []
  | _, ['\\'] => none
  | quoted, '\\' :: c :: cs => (arrayMarks? quoted cs).map (.kept c :: ·)
  | quoted, '"' :: cs => (arrayMarks? (!quoted) cs).map (.quote :: ·)
  | quoted, c :: cs => (arrayMarks? quoted cs).map ((if quoted then .kept c else .bare c) :: ·)

/-- The blanks that may stand around the items of an array. -/
def isArrayBlank (c : Char) : Bool := [' ', '\t', '\n', '\x0b', '\x0c', '\r'].contains c

/-- The mark is a blank with a meaning. -/
def ArrayMark.isBlank : ArrayMark → Bool
  | bare c => isArrayBlank c
  | _ => false

/-- Marks without the blanks around them. -/
def stripped (marks : List ArrayMark) : List ArrayMark :=
  (marks.dropWhile (·.isBlank)).rdropWhile (·.isBlank)

/-- The character of a mark in an item. A brace with a meaning belongs to an inner array. -/
def ArrayMark.char? : ArrayMark → Option Char
  | bare c => if c = '{' ∨ c = '}' then none else some c
  | kept c => some c
  | quote => none

/-- The word for an item that is no text. -/
def isNull (marks : List ArrayMark) : Bool :=
  marks.map (fun | .bare c => some c.toLower | _ => none) = ['n', 'u', 'l', 'l'].map some

/-- Reads an item: a text between quotes, null, or a text that is not empty. -/
def arrayItem? (marks : List ArrayMark) : Option (Option String) :=
  match stripped marks with
  | [] => none
  | .quote :: marks =>
    if marks.getLast? = some .quote then
      (marks.dropLast.mapM ArrayMark.char?).map (some <| .ofList ·)
    else none
  | marks =>
    if isNull marks then some none else (marks.mapM ArrayMark.char?).map (some <| .ofList ·)

/-- Reads an array of texts, each of which may be null. Arrays of arrays are not read. -/
def readArray? (text : List Char) : Option (List (Option String)) := do
  match stripped (← arrayMarks? false text) with
  | mark :: marks =>
    if mark = .bare '{' ∧ marks.getLast? = some (.bare '}') then
      let items := marks.dropLast
      if stripped items = [] then some [] else (items.splitOn (.bare ',')).mapM arrayItem?
    else none
  | [] => none

/-- **A text needs no quotes** as an item of an array. -/
@[mk_iff]
structure NeedsNoQuotes (item : String) : Prop where
  nonempty : item ≠ ""
  plain : ∀ c ∈ item.toList, c ∉ [',', '{', '}', '"', '\\']
  head : ∀ c ∈ item.toList.head?, isArrayBlank c = false
  last : ∀ c ∈ item.toList.getLast?, isArrayBlank c = false
  word : item.toList.map Char.toLower ≠ ['n', 'u', 'l', 'l']

instance (item : String) : Decidable (NeedsNoQuotes item) :=
  decidable_of_iff (item ≠ "" ∧ item.toList.all (· ∉ [',', '{', '}', '"', '\\']) = true ∧
      item.toList.head?.all (isArrayBlank · == false) = true ∧
      item.toList.getLast?.all (isArrayBlank · == false) = true ∧
      item.toList.map Char.toLower ≠ ['n', 'u', 'l', 'l']) <| by
    simp only [needsNoQuotes_iff, List.all_eq_true, Option.all_eq_true, decide_eq_true_eq,
      beq_iff_eq, Option.mem_def]

/-! ### Marks -/

theorem length_le_of_arrayMarks? {quoted : Bool} {cs : List Char} {marks : List ArrayMark}
    (h : arrayMarks? quoted cs = some marks) : marks.length ≤ cs.length := by
  fun_induction arrayMarks? quoted cs generalizing marks with
  | case1 => cases h
  | case2 =>
    cases h
    exact Nat.le_refl _
  | case3 => cases h
  | case4 quoted c cs ih =>
    obtain ⟨rest, hrest, rfl⟩ := Option.map_eq_some_iff.mp h
    exact Nat.le_succ_of_le (Nat.succ_le_succ (ih hrest))
  | case5 quoted cs ih | case6 quoted c cs _ _ _ ih =>
    obtain ⟨rest, hrest, rfl⟩ := Option.map_eq_some_iff.mp h
    exact Nat.succ_le_succ (ih hrest)

/-- A character that makes marks of others. -/
def IsSign (c : Char) : Prop := c = '"' ∨ c = '\\'

theorem arrayMarks?_cons {c : Char} (h : ¬ IsSign c) (cs : List Char) :
    arrayMarks? false (c :: cs) = (arrayMarks? false cs).map (.bare c :: ·) := by
  rw [arrayMarks?]
  · rfl
  · rintro rfl
    exact absurd (.inr rfl) h
  · rintro c' cs' rfl
    exact absurd (.inr rfl) h
  · rintro rfl
    exact absurd (.inl rfl) h

theorem arrayMarks?_bare {cs : List Char} (h : ∀ c ∈ cs, ¬ IsSign c) :
    arrayMarks? false cs = some (cs.map .bare) := by
  induction cs with
  | nil => rfl
  | cons c cs ih =>
    obtain ⟨hc, hcs⟩ := List.forall_mem_cons.mp h
    rw [arrayMarks?_cons hc, ih hcs]
    rfl

/-- If there are as many marks as characters and no quote among them, there were no signs. -/
theorem not_isSign_of_arrayMarks? {cs : List Char} {marks : List ArrayMark}
    (h : arrayMarks? false cs = some marks) (hlength : cs.length ≤ marks.length)
    (hquote : .quote ∉ marks) : ∀ c ∈ cs, ¬ IsSign c := by
  induction cs generalizing marks with
  | nil => exact List.forall_mem_nil _
  | cons c cs ih =>
    by_cases hsign : IsSign c
    · obtain rfl | rfl := hsign
      · obtain ⟨rest, -, rfl⟩ := Option.map_eq_some_iff.mp h
        exact absurd List.mem_cons_self hquote
      · -- What a backslash keeps has one mark for two characters.
        cases cs with
        | nil => cases h
        | cons c cs =>
          obtain ⟨rest, hrest, rfl⟩ := Option.map_eq_some_iff.mp h
          have hle := length_le_of_arrayMarks? hrest
          rw [List.length_cons, List.length_cons, List.length_cons] at hlength
          omega
    · rw [arrayMarks?_cons hsign] at h
      obtain ⟨rest, hrest, rfl⟩ := Option.map_eq_some_iff.mp h
      rw [List.mem_cons, not_or] at hquote
      exact List.forall_mem_cons.mpr
        ⟨hsign, ih hrest (Nat.le_of_succ_le_succ hlength) hquote.2⟩

/-! ### Blanks -/

theorem stripped_sublist (marks : List ArrayMark) : (stripped marks).Sublist marks :=
  (List.rdropWhile_prefix _ _).sublist.trans (List.dropWhile_sublist _)

/-- No blanks are around the marks. -/
def Unblanked (marks : List ArrayMark) : Prop :=
  (∀ m ∈ marks.head?, m.isBlank = false) ∧ ∀ m ∈ marks.getLast?, m.isBlank = false

theorem dropWhile_isBlank_eq_self_iff {marks : List ArrayMark} :
    marks.dropWhile (·.isBlank) = marks ↔ ∀ m ∈ marks.head?, m.isBlank = false := by
  rw [List.dropWhile_eq_self_iff]
  cases marks <;> simp

theorem rdropWhile_isBlank_eq_self_iff {marks : List ArrayMark} :
    marks.rdropWhile (·.isBlank) = marks ↔ ∀ m ∈ marks.getLast?, m.isBlank = false := by
  rw [List.rdropWhile_eq_self_iff]
  cases marks using List.reverseRecOn <;> simp

theorem stripped_eq_self_iff {marks : List ArrayMark} :
    stripped marks = marks ↔ Unblanked marks := by
  rw [Unblanked, ← dropWhile_isBlank_eq_self_iff, ← rdropWhile_isBlank_eq_self_iff, stripped]
  constructor
  · intro h
    have hdrop : marks.dropWhile (·.isBlank) = marks := by
      refine (List.dropWhile_sublist _).eq_of_length_le ?_
      have hle := (List.rdropWhile_prefix (·.isBlank) (marks.dropWhile (·.isBlank))).length_le
      rwa [h] at hle
    rw [hdrop] at h
    exact ⟨hdrop, h⟩
  · rintro ⟨hdrop, hlast⟩
    rw [hdrop, hlast]

theorem stripped_eq_nil_iff {marks : List ArrayMark} :
    stripped marks = [] ↔ ∀ m ∈ marks, m.isBlank = true := by
  rw [stripped, List.rdropWhile_eq_nil_iff]
  refine ⟨fun h => ?_, fun h m hm => h m ((List.dropWhile_sublist _).subset hm)⟩
  by_contra hsome
  have hne : marks.dropWhile (·.isBlank) ≠ [] := by rwa [Ne, List.dropWhile_eq_nil_iff]
  have hfalse := List.head_dropWhile_not ArrayMark.isBlank hne
  rw [h _ (List.head_mem hne)] at hfalse
  cases hfalse

theorem unblanked_map_bare {cs : List Char} : Unblanked (cs.map .bare) ↔
    (∀ c ∈ cs.head?, isArrayBlank c = false) ∧ ∀ c ∈ cs.getLast?, isArrayBlank c = false := by
  simp [Unblanked, List.head?_map, List.getLast?_map, ArrayMark.isBlank]

/-! ### Items -/

theorem mapM_eq_some_iff {α β : Type} {f : α → Option β} : ∀ {as : List α} {bs : List β},
    as.mapM f = some bs ↔ List.Forall₂ (fun a b => f a = some b) as bs
  | [], bs => by
    rw [List.mapM_nil, List.forall₂_nil_left_iff]
    exact ⟨fun h => (Option.some.inj h).symm, fun h => congrArg some h.symm⟩
  | a :: as, bs => by
    rw [List.mapM_cons, List.forall₂_cons_left_iff]
    simp only [Option.bind_eq_bind, Option.bind_eq_some_iff, mapM_eq_some_iff, Option.pure_def,
      Option.some.injEq]
    constructor
    · rintro ⟨b, hb, bs, hbs, rfl⟩
      exact ⟨b, bs, hb, hbs, rfl⟩
    · rintro ⟨b, bs, hb, hbs, rfl⟩
      exact ⟨b, hb, bs, hbs, rfl⟩

theorem arrayItem?_eq {marks : List ArrayMark} {item : String}
    (h : arrayItem? marks = some (some item)) : item.toList.length ≤ marks.length ∧
      (marks.length ≤ item.toList.length → stripped marks = marks ∧ .quote ∉ marks) := by
  have hinner := stripped_sublist marks
  unfold arrayItem? at h
  split at h
  · cases h
  · next inner hquoted =>
    -- Two quotes belong to no text.
    obtain ⟨hlast, h⟩ := Option.ite_none_right_eq_some.mp h
    obtain ⟨cs, hcs, heq⟩ := Option.map_eq_some_iff.mp h
    cases heq
    have hlength := (mapM_eq_some_iff.mp hcs).length_eq
    have hle := hinner.length_le
    rw [hquoted, List.length_cons] at hle
    rw [List.length_dropLast] at hlength
    rw [String.toList_ofList]
    have hpos : 0 < inner.length := List.length_pos_of_mem (List.mem_of_getLast? hlast)
    omega
  · split at h
    · cases h
    · obtain ⟨cs, hcs, heq⟩ := Option.map_eq_some_iff.mp h
      cases heq
      have hall := mapM_eq_some_iff.mp hcs
      rw [String.toList_ofList, ← hall.length_eq]
      refine ⟨hinner.length_le, fun hle => ?_⟩
      have heq := hinner.eq_of_length_le hle
      refine ⟨heq, fun hmem => ?_⟩
      rw [heq] at hall
      obtain ⟨c, hc⟩ := exists_forall₂_iff.mp ⟨cs, hall⟩ _ hmem
      cases hc

theorem isNull_map_bare {cs : List Char} :
    isNull (cs.map .bare) = true ↔ cs.map Char.toLower = ['n', 'u', 'l', 'l'] := by
  have hletters : isNull (cs.map .bare) =
      decide ((cs.map Char.toLower).map some = ['n', 'u', 'l', 'l'].map some) := by
    rw [isNull, List.map_map, List.map_map]
    rfl
  rw [hletters, decide_eq_true_iff, List.map_inj_right fun _ _ => Option.some.inj]

theorem mapM_char?_bare {cs item : List Char} :
    (cs.map ArrayMark.bare).mapM ArrayMark.char? = some item ↔
      item = cs ∧ ∀ c ∈ cs, c ≠ '{' ∧ c ≠ '}' := by
  rw [mapM_eq_some_iff, List.forall₂_map_left_iff]
  have hchar (c d : Char) : (ArrayMark.bare c).char? = some d ↔ d = c ∧ c ≠ '{' ∧ c ≠ '}' := by
    rw [ArrayMark.char?, Option.ite_none_left_eq_some, not_or, Option.some.injEq, and_comm, eq_comm]
  simp only [hchar]
  constructor
  · intro h
    induction h with
    | nil => exact ⟨rfl, List.forall_mem_nil _⟩
    | cons hc _ ih => exact ⟨by rw [hc.1, ih.1], List.forall_mem_cons.mpr ⟨hc.2, ih.2⟩⟩
  · rintro ⟨rfl, h⟩
    exact List.forall₂_same.mpr fun c hc => ⟨rfl, h c hc⟩

/-- **What stands as it is, is the item**, if no blanks are around it. -/
theorem arrayItem?_bare {cs : List Char} {item : String} (h : Unblanked (cs.map .bare)) :
    arrayItem? (cs.map .bare) = some (some item) ↔ item.toList = cs ∧ cs ≠ [] ∧
      (∀ c ∈ cs, c ≠ '{' ∧ c ≠ '}') ∧ cs.map Char.toLower ≠ ['n', 'u', 'l', 'l'] := by
  have hread : arrayItem? (cs.map .bare) = if cs = [] then none else
      if isNull (cs.map .bare) then some none
      else ((cs.map ArrayMark.bare).mapM ArrayMark.char?).map (some <| .ofList ·) := by
    rw [arrayItem?, stripped_eq_self_iff.mpr h]
    cases cs <;> rfl
  rw [hread, Option.ite_none_left_eq_some]
  by_cases hnull : cs.map Char.toLower = ['n', 'u', 'l', 'l']
  · rw [if_pos (isNull_map_bare.mpr hnull)]
    exact iff_of_false nofun fun hall => hall.2.2.2 hnull
  · rw [if_neg (isNull_map_bare.not.mpr hnull), Option.map_eq_some_iff]
    simp only [mapM_char?_bare, Option.some.injEq]
    constructor
    · rintro ⟨hne, _, ⟨rfl, hplain⟩, rfl⟩
      exact ⟨String.toList_ofList, hne, hplain, hnull⟩
    · rintro ⟨rfl, hne, hplain, -⟩
      exact ⟨hne, _, ⟨rfl, hplain⟩, String.ofList_toList⟩

/-! ### Items between commas -/

section Commas

variable {α β : Type} {a x : α} {l : List α} {ls : List (List α)}

theorem length_intercalate (h : ls ≠ []) :
    ([x].intercalate ls).length + 1 = (ls.map (·.length + 1)).sum := by
  induction ls with
  | nil => exact absurd rfl h
  | cons l ls ih =>
    cases ls with
    | nil => rw [List.intercalate_singleton, List.map_singleton, List.sum_singleton]
    | cons next ls =>
      rw [List.intercalate_cons_cons, List.map_cons, List.sum_cons, ← ih (List.cons_ne_nil _ _),
        List.length_append, List.length_append, List.length_singleton, Nat.add_assoc]

theorem mem_intercalate_of_mem (hl : l ∈ ls) (ha : a ∈ l) : a ∈ [x].intercalate ls := by
  induction ls with
  | nil => cases hl
  | cons first ls ih =>
    cases ls with
    | nil => rwa [List.intercalate_singleton, ← List.mem_singleton.mp hl]
    | cons next ls =>
      rw [List.intercalate_cons_cons, List.append_assoc, List.mem_append, List.mem_append]
      rcases List.mem_cons.mp hl with rfl | hl
      · exact .inl ha
      · exact .inr (.inr (ih hl))

theorem exists_mem_of_mem_intercalate (h : a ∈ [x].intercalate ls) (ha : a ≠ x) :
    ∃ l ∈ ls, a ∈ l := by
  induction ls with
  | nil => cases h
  | cons first ls ih =>
    cases ls with
    | nil => exact ⟨first, List.mem_singleton_self _, by rwa [List.intercalate_singleton] at h⟩
    | cons next ls =>
      rw [List.intercalate_cons_cons, List.append_assoc, List.mem_append, List.mem_append,
        List.mem_singleton] at h
      rcases h with h | h | h
      · exact ⟨first, List.mem_cons_self, h⟩
      · exact absurd h ha
      · obtain ⟨l, hl, hmem⟩ := ih h
        exact ⟨l, List.mem_cons_of_mem _ hl, hmem⟩

variable [BEq α] [LawfulBEq α] [BEq β] [LawfulBEq β]

theorem not_mem_of_mem_splitOn {as : List α} (h : l ∈ as.splitOn x) : x ∉ l := by
  induction as generalizing l with
  | nil =>
    rw [List.splitOn_nil, List.mem_singleton] at h
    rw [h]
    exact List.not_mem_nil
  | cons a as ih =>
    rw [List.splitOn_cons_eq_if_modifyHead] at h
    split at h
    · rcases List.mem_cons.mp h with rfl | h
      · exact List.not_mem_nil
      · exact ih h
    · next hax =>
      obtain ⟨first, rest, hsplit⟩ := List.exists_cons_of_ne_nil (List.splitOn_ne_nil x as)
      rw [hsplit] at ih h
      rw [List.modifyHead_cons] at h
      rcases List.mem_cons.mp h with rfl | h
      · rw [List.mem_cons, not_or]
        exact ⟨fun heq => hax (beq_iff_eq.mpr heq.symm), ih List.mem_cons_self⟩
      · exact ih (List.mem_cons_of_mem _ h)

theorem splitOn_map {f : α → β} (hf : f.Injective) (as : List α) (x : α) :
    (as.map f).splitOn (f x) = (as.splitOn x).map (·.map f) := by
  induction as with
  | nil => rfl
  | cons a as ih =>
    rw [List.map_cons, List.splitOn_cons_eq_if_modifyHead, List.splitOn_cons_eq_if_modifyHead, ih]
    by_cases ha : a = x
    · rw [if_pos (beq_iff_eq.mpr (congrArg f ha)), if_pos (beq_iff_eq.mpr ha)]
      rfl
    · rw [if_neg (beq_iff_eq.not.mpr (hf.ne ha)), if_neg (beq_iff_eq.not.mpr ha)]
      obtain ⟨first, rest, hsplit⟩ := List.exists_cons_of_ne_nil (List.splitOn_ne_nil x as)
      rw [hsplit]
      rfl

end Commas

/-! ### Arrays -/

/-- The text of an array whose items are written as they stand. -/
def braced (items : List (List Char)) : List Char := '{' :: ([','].intercalate items ++ ['}'])

/-- **An array without signs** is read item by item. -/
theorem readArray?_of_not_isSign {cs : List Char} (h : ∀ c ∈ cs, ¬ IsSign c) :
    readArray? ('{' :: (cs ++ ['}'])) = if stripped (cs.map .bare) = [] then some [] else
      (cs.splitOn ',').mapM fun item => arrayItem? (item.map .bare) := by
  have hsigns : ∀ c ∈ '{' :: (cs ++ ['}']), ¬ IsSign c := by
    have hbrace : ¬ IsSign '{' ∧ ¬ IsSign '}' := by
      unfold IsSign
      decide
    rw [List.forall_mem_cons, List.forall_mem_append, List.forall_mem_singleton]
    exact ⟨hbrace.1, h, hbrace.2⟩
  have hmarks : ('{' :: (cs ++ ['}'])).map ArrayMark.bare =
      .bare '{' :: (cs.map .bare ++ [.bare '}']) := by
    rw [List.map_cons, List.map_append, List.map_singleton]
  have hstripped : stripped (.bare '{' :: (cs.map .bare ++ [.bare '}'])) =
      .bare '{' :: (cs.map .bare ++ [.bare '}']) := by
    refine stripped_eq_self_iff.mpr ⟨?_, ?_⟩
    · rintro m ⟨⟩
      decide
    · rw [← List.cons_append, List.getLast?_concat]
      rintro m ⟨⟩
      decide
  rw [readArray?, arrayMarks?_bare hsigns, hmarks, Option.bind_eq_bind, Option.bind_some, hstripped]
  dsimp only
  rw [List.getLast?_concat, if_pos ⟨rfl, rfl⟩, List.dropLast_concat,
    splitOn_map (fun _ _ => ArrayMark.bare.inj) cs ',', List.mapM_map]
  rfl

theorem quiet_of_forall₂ {parts : List (List ArrayMark)} {items : List String}
    (h : List.Forall₂ (fun part item => arrayItem? part = some (some item)) parts items) :
    (items.map (·.toList.length + 1)).sum ≤ (parts.map (·.length + 1)).sum ∧
      ((parts.map (·.length + 1)).sum ≤ (items.map (·.toList.length + 1)).sum →
        ∀ part ∈ parts, stripped part = part ∧ .quote ∉ part) := by
  induction h with
  | nil => exact ⟨Nat.le_refl _, fun _ => List.forall_mem_nil _⟩
  | cons hitem _ ih =>
    obtain ⟨hle, hquiet⟩ := arrayItem?_eq hitem
    simp only [List.map_cons, List.sum_cons, List.forall_mem_cons]
    refine ⟨by omega, fun hsum => ⟨hquiet (by omega), ih.2 (by omega)⟩⟩

namespace NeedsNoQuotes

variable {item : String}

theorem not_isSign (h : NeedsNoQuotes item) : ∀ c ∈ item.toList, ¬ IsSign c := by
  intro c hc hsign
  refine h.plain c hc ?_
  rcases hsign with rfl | rfl <;> decide

theorem comma_notMem (h : NeedsNoQuotes item) : ',' ∉ item.toList :=
  fun hc => h.plain ',' hc (by decide)

theorem toList_ne_nil (h : NeedsNoQuotes item) : item.toList ≠ [] :=
  String.toList_eq_nil_iff.not.mpr h.nonempty

theorem arrayItem?_eq (h : NeedsNoQuotes item) :
    arrayItem? (item.toList.map .bare) = some (some item) := by
  refine (arrayItem?_bare (unblanked_map_bare.mpr ⟨h.head, h.last⟩)).mpr
    ⟨rfl, h.toList_ne_nil, fun c hc => ⟨?_, ?_⟩, h.word⟩ <;>
  · rintro rfl
    exact h.plain _ hc (by decide)

theorem stripped_ne_nil (h : NeedsNoQuotes item) {texts : List (List Char)}
    (hmem : item.toList ∈ texts) : stripped (([','].intercalate texts).map .bare) ≠ [] := by
  rw [Ne, stripped_eq_nil_iff]
  intro hblank
  have hhead := mem_intercalate_of_mem (x := ',') hmem (List.head_mem h.toList_ne_nil)
  have hfalse := h.head _ (List.head?_eq_some_head h.toList_ne_nil)
  rw [← ArrayMark.isBlank, hblank _ (List.mem_map_of_mem hhead)] at hfalse
  cases hfalse

end NeedsNoQuotes

theorem needsNoQuotes_of_arrayItem? {cs : List Char} {item : String}
    (hblanks : Unblanked (cs.map .bare)) (hcomma : ',' ∉ cs) (hsigns : ∀ c ∈ cs, ¬ IsSign c)
    (h : arrayItem? (cs.map .bare) = some (some item)) : NeedsNoQuotes item := by
  obtain ⟨rfl, hne, hbraces, hword⟩ := (arrayItem?_bare hblanks).mp h
  obtain ⟨hhead, hlast⟩ := unblanked_map_bare.mp hblanks
  refine ⟨String.toList_eq_nil_iff.not.mp hne, fun c hc => ?_, hhead, hlast, hword⟩
  have hsign := not_or.mp (hsigns c hc)
  simp only [List.mem_cons, List.not_mem_nil, or_false, not_or]
  exact ⟨fun heq => hcomma (heq ▸ hc), (hbraces c hc).1, (hbraces c hc).2, hsign⟩

theorem readArray?_braced {items : List String} (h : ∀ item ∈ items, NeedsNoQuotes item) :
    readArray? (braced (items.map (·.toList))) = some (items.map some) := by
  have hsigns : ∀ c ∈ [','].intercalate (items.map (·.toList)), ¬ IsSign c := by
    intro c hc
    by_cases hcomma : c = ','
    · rw [hcomma]
      unfold IsSign
      decide
    · obtain ⟨text, htext, hmem⟩ := exists_mem_of_mem_intercalate hc hcomma
      obtain ⟨item, hitem, rfl⟩ := List.mem_map.mp htext
      exact (h item hitem).not_isSign c hmem
  rw [braced, readArray?_of_not_isSign hsigns]
  cases items with
  | nil => rfl
  | cons first rest =>
    have hfirst := h first List.mem_cons_self
    have hsome := hfirst.stripped_ne_nil
      (List.mem_map_of_mem (f := String.toList) (List.mem_cons_self : first ∈ first :: rest))
    have hcommas : ∀ text ∈ (first :: rest).map (·.toList), ',' ∉ text := by
      intro text htext
      obtain ⟨item, hitem, rfl⟩ := List.mem_map.mp htext
      exact (h item hitem).comma_notMem
    rw [if_neg hsome, List.splitOn_intercalate ',' hcommas (List.cons_ne_nil _ _), mapM_eq_some_iff,
      List.forall₂_map_left_iff, List.forall₂_map_right_iff, List.forall₂_same]
    exact fun item hitem => (h item hitem).arrayItem?_eq

theorem exists_marks_of_readArray? {text : List Char} {items : List String} (hne : items ≠ [])
    (h : readArray? text = some (items.map some)) :
    ∃ marks inner, arrayMarks? false text = some marks ∧
      stripped marks = .bare '{' :: (inner ++ [.bare '}']) ∧
      List.Forall₂ (fun part item => arrayItem? part = some (some item))
        (inner.splitOn (.bare ',')) items := by
  rw [readArray?] at h
  obtain ⟨marks, hmarks, h⟩ := Option.bind_eq_some_iff.mp h
  split at h
  · next mark rest hstripped =>
    obtain ⟨⟨hbrace, hlast⟩, hread⟩ := Option.ite_none_right_eq_some.mp h
    dsimp only at hread
    split at hread
    · exact absurd (List.map_eq_nil_iff.mp (Option.some.inj hread).symm) hne
    · refine ⟨marks, rest.dropLast, hmarks, ?_, ?_⟩
      · rw [hstripped, hbrace, List.dropLast_append_getLast? _ hlast]
      · rwa [mapM_eq_some_iff, List.forall₂_map_right_iff] at hread
  · cases h

theorem not_isSign_of_readArray? {text : List Char} {items : List String} (hne : items ≠ [])
    (h : readArray? text = some (items.map some))
    (hlength : text.length ≤ (items.map (·.toList.length + 1)).sum + 1) :
    ∀ c ∈ text, ¬ IsSign c := by
  obtain ⟨marks, inner, hmarks, hstripped, hitems⟩ := exists_marks_of_readArray? hne h
  obtain ⟨hle, hquiet⟩ := quiet_of_forall₂ hitems
  have hsplit := length_intercalate (x := .bare ',') (List.splitOn_ne_nil (.bare ',') inner)
  rw [List.intercalate_splitOn] at hsplit
  have hsub := stripped_sublist marks
  have hinner := hsub.length_le
  rw [hstripped, List.length_cons, List.length_append, List.length_singleton] at hinner
  have hchars := length_le_of_arrayMarks? hmarks
  -- Nothing was stripped and no item has quotes: as many marks are left as there are characters.
  have hmarks' : stripped marks = marks := by
    refine hsub.eq_of_length_le ?_
    rw [hstripped, List.length_cons, List.length_append, List.length_singleton]
    omega
  refine not_isSign_of_arrayMarks? hmarks (by omega) fun hquote => ?_
  rw [← hmarks', hstripped, List.mem_cons, List.mem_append, List.mem_singleton] at hquote
  rcases hquote with hquote | hquote | hquote
  · cases hquote
  · have hwhole : [.bare ','].intercalate (inner.splitOn (.bare ',')) = inner :=
      List.intercalate_splitOn _
    rw [← hwhole] at hquote
    obtain ⟨part, hpart, hmem⟩ := exists_mem_of_mem_intercalate hquote nofun
    exact (hquiet (by omega) part hpart).2 hmem
  · cases hquote

theorem length_intercalate_items {items : List String} (hne : items ≠ []) :
    ([','].intercalate (items.map (·.toList))).length + 1 =
      (items.map (·.toList.length + 1)).sum := by
  rw [length_intercalate (List.map_eq_nil_iff.not.mpr hne), List.map_map]
  rfl

theorem needsNoQuotes_of_forall₂ {parts : List (List Char)} {items : List String}
    (hcommas : ∀ part ∈ parts, ',' ∉ part) (hsigns : ∀ part ∈ parts, ∀ c ∈ part, ¬ IsSign c)
    (h : List.Forall₂ (fun part item => arrayItem? (part.map .bare) = some (some item)) parts items)
    (hsum : (parts.map (·.length + 1)).sum ≤ (items.map (·.toList.length + 1)).sum) :
    ∀ item ∈ items, NeedsNoQuotes item := by
  have hmarks : ((parts.map (·.map ArrayMark.bare)).map (·.length + 1)).sum =
      (parts.map (·.length + 1)).sum := by
    rw [List.map_map]
    simp only [Function.comp_def, List.length_map]
  have hquiet := (quiet_of_forall₂ (List.forall₂_map_left_iff.mpr h)).2 (hmarks.trans_le hsum)
  rw [List.forall_mem_map] at hquiet
  have hplain : ∀ part ∈ parts,
      Unblanked (part.map .bare) ∧ ',' ∉ part ∧ ∀ c ∈ part, ¬ IsSign c := fun part hpart =>
    ⟨stripped_eq_self_iff.mp (hquiet part hpart).1, hcommas part hpart, hsigns part hpart⟩
  have hall := ((List.forall₂_and_left _ _).mpr ⟨hplain, h⟩).imp
    fun part item hitem => needsNoQuotes_of_arrayItem? hitem.1.1 hitem.1.2.1 hitem.1.2.2 hitem.2
  intro item hitem
  obtain ⟨-, hquotes⟩ := exists_forall₂_iff.mp ⟨_, hall.flip⟩ item hitem
  exact hquotes

/-- **Items written as they stand are read** exactly if none of them needs quotes. -/
theorem readArray?_braced_iff {items : List String} :
    readArray? (braced (items.map (·.toList))) = some (items.map some) ↔
      ∀ item ∈ items, NeedsNoQuotes item := by
  refine ⟨fun h => ?_, readArray?_braced⟩
  by_cases hne : items = []
  · rw [hne]
    exact List.forall_mem_nil _
  have hlength := length_intercalate_items hne
  have hsigns : ∀ c ∈ [','].intercalate (items.map (·.toList)), ¬ IsSign c := by
    intro c hc
    refine not_isSign_of_readArray? hne h ?_ c (List.mem_cons_of_mem _ (List.mem_append_left _ hc))
    rw [braced, List.length_cons, List.length_append, List.length_singleton]
    omega
  rw [braced, readArray?_of_not_isSign hsigns] at h
  set chars := [','].intercalate (items.map (·.toList))
  split at h
  · exact absurd (List.map_eq_nil_iff.mp (Option.some.inj h).symm) hne
  rw [mapM_eq_some_iff, List.forall₂_map_right_iff] at h
  have hwhole : [','].intercalate (chars.splitOn ',') = chars := List.intercalate_splitOn _
  have hparts := length_intercalate (x := ',') (List.splitOn_ne_nil ',' chars)
  rw [hwhole, hlength] at hparts
  refine needsNoQuotes_of_forall₂ (fun part => not_mem_of_mem_splitOn) ?_ h hparts.ge
  intro part hpart c hc
  exact hsigns c (hwhole ▸ mem_intercalate_of_mem hpart hc)

/-! ### Equal texts -/

theorem intercalate_eq_nil_iff {α : Type} {x : α} {ls : List (List α)} :
    [x].intercalate ls = [] ↔ ls = [] ∨ ls = [[]] := by
  cases ls with
  | nil => exact iff_of_true rfl (.inl rfl)
  | cons l ls =>
    cases ls with
    | nil => simp [List.intercalate_singleton]
    | cons next ls => simp [List.intercalate_cons_cons]

theorem intercalate_eq_iff {α : Type} [BEq α] [LawfulBEq α] {x : α} {ls ls' : List (List α)}
    (h : ∀ l ∈ ls, x ∉ l) (h' : ∀ l ∈ ls', x ∉ l) :
    [x].intercalate ls = [x].intercalate ls' ↔
      ls = ls' ∨ ls = [] ∧ ls' = [[]] ∨ ls = [[]] ∧ ls' = [] := by
  by_cases hls : ls = []
  · rw [hls, List.intercalate_nil, eq_comm, intercalate_eq_nil_iff]
    simp [eq_comm]
  by_cases hls' : ls' = []
  · rw [hls', List.intercalate_nil, intercalate_eq_nil_iff]
    simp
  refine ⟨fun heq => .inl ?_, ?_⟩
  · rw [← List.splitOn_intercalate x h hls, heq, List.splitOn_intercalate x h' hls']
  · rintro (rfl | ⟨rfl, -⟩ | ⟨-, rfl⟩)
    · rfl
    · exact absurd rfl hls
    · exact absurd rfl hls'

end Sql

namespace NewAccessListElement

variable {r r' : NewAccessListElement} {keys keys' : List String} {text : String}

theorem toList_of_keysLiteral (hkeys : r.storageKeys = some keys) (h : r.keysLiteral = some text) :
    text.toList = Sql.braced (keys.map (·.toList)) := by
  rw [keysLiteral, hkeys] at h
  cases h
  rw [String.toList_append, String.toList_append, String.toList_intercalate]
  rfl

theorem exists_keysLiteral (hkeys : r.storageKeys = some keys) :
    ∃ text, r.keysLiteral = some text ∧ text.toList = Sql.braced (keys.map (·.toList)) := by
  have h : r.keysLiteral = some ("\x7b" ++ ",".intercalate keys ++ "\x7d") := by
    rw [keysLiteral, hkeys]
    rfl
  exact ⟨_, h, toList_of_keysLiteral hkeys h⟩

/-- Keys without commas are told apart by their text, but for a single one that is empty. -/
theorem keysLiteral_eq_iff (hkeys : r.storageKeys = some keys)
    (hkeys' : r'.storageKeys = some keys') (hcommas : ∀ key ∈ keys ++ keys', ',' ∉ key.toList) :
    r.keysLiteral = r'.keysLiteral ↔
      keys = keys' ∨ keys = [] ∧ keys' = [""] ∨ keys = [""] ∧ keys' = [] := by
  obtain ⟨text, htext, hchars⟩ := exists_keysLiteral hkeys
  obtain ⟨text', htext', hchars'⟩ := exists_keysLiteral hkeys'
  rw [List.forall_mem_append] at hcommas
  have hempty (keys : List String) : keys.map (·.toList) = [[]] ↔ keys = [""] := by
    have hmap : [[]] = [""].map (·.toList) := rfl
    rw [hmap, List.map_inj_right fun _ _ => String.toList_inj.mp]
  rw [htext, htext', Option.some.injEq, ← String.toList_inj, hchars, hchars', Sql.braced,
    Sql.braced, List.cons.injEq, List.append_cancel_right_eq, eq_self_iff_true, true_and,
    Sql.intercalate_eq_iff (List.forall_mem_map.mpr hcommas.1) (List.forall_mem_map.mpr hcommas.2),
    List.map_inj_right fun _ _ => String.toList_inj.mp, hempty, hempty, List.map_eq_nil_iff,
    List.map_eq_nil_iff]

end NewAccessListElement

theorem Sql.exists_insert_storageKeys :
    ∃ insert, Sql.Insert.read Table.accessListElements.writeQuery = some insert ∧
      ∀ rows : List NewAccessListElement,
        insert.array? (NewRows.columns ⟨.accessListElements, rows⟩) "storage_keys" =
          some (rows.map fun r => .ofOption .text r.keysLiteral) := by
  obtain ⟨insert, hread, hcolumns, hsources⟩ := Sql.exists_insert .accessListElements
  refine ⟨insert, hread, fun rows => ?_⟩
  have hmem : "storage_keys" ∈ insert.columns := by
    rw [hcolumns]
    decide
  obtain ⟨k, hk, harray⟩ := insert.exists_array?_eq hsources hmem
    (NewRows.columns ⟨.accessListElements, rows⟩)
  have hlast : k = 3 := by
    rw [hcolumns] at hk
    rcases k with _ | _ | _ | _ | k
    · exact absurd hk (by decide)
    · exact absurd hk (by decide)
    · exact absurd hk (by decide)
    · rfl
    · cases hk
  rw [harray, hlast]
  let new : NewRows := ⟨.accessListElements, rows⟩
  have hfield : (NewRow.fields new.table)[3]? = some ⟨"storage_keys", .textArray, true⟩ := rfl
  exact NewRows.getElem?_columns hfield

/-- **Storage keys are kept** exactly if none of them needs quotes. The array that an insert fills
the column of storage keys from has one text for each row, and none for a row without a list. Such a
text is read as the keys of its row exactly if no key is empty, begins or ends with a blank, has a
comma, a brace, a quote or a backslash, or is the word for null. If no key has a comma, rows that
have one text have one list of keys, unless one has no keys and the other a single empty one. -/
theorem accessList_keys_kept (rows : List NewAccessListElement) :
    (∃ insert, Sql.Insert.read Table.accessListElements.writeQuery = some insert ∧
      insert.array? (NewRows.columns ⟨.accessListElements, rows⟩) "storage_keys" =
        some (rows.map fun r => .ofOption .text r.keysLiteral)) ∧
    (∀ r : NewAccessListElement, r.keysLiteral = none ↔ r.storageKeys = none) ∧
    (∀ (r : NewAccessListElement) (keys : List String), r.storageKeys = some keys →
      ∃ text, r.keysLiteral = some text ∧
        (Sql.readArray? text.toList = some (keys.map some) ↔
          ∀ key ∈ keys, Sql.NeedsNoQuotes key)) ∧
    ∀ (r r' : NewAccessListElement) (keys keys' : List String), r.storageKeys = some keys →
      r'.storageKeys = some keys' → (∀ key ∈ keys ++ keys', ',' ∉ key.toList) →
      (r.keysLiteral = r'.keysLiteral ↔
        keys = keys' ∨ keys = [] ∧ keys' = [""] ∨ keys = [""] ∧ keys' = []) := by
  obtain ⟨insert, hread, harray⟩ := Sql.exists_insert_storageKeys
  refine ⟨⟨insert, hread, harray rows⟩, fun r => Option.map_eq_none_iff, fun r keys hkeys => ?_,
    fun r r' keys keys' => NewAccessListElement.keysLiteral_eq_iff⟩
  obtain ⟨text, htext, hchars⟩ := NewAccessListElement.exists_keysLiteral hkeys
  exact ⟨text, htext, by rw [hchars, Sql.readArray?_braced_iff]⟩

/-- Two keys are read back, and no other keys without commas have their text. -/
theorem accessList_keys_kept_pair :
    let row (keys : List String) : NewAccessListElement := ⟨"0xa", 0, none, some keys⟩
    (∃ text, (row ["0x01", "0x02"]).keysLiteral = some text ∧
      Sql.readArray? text.toList = some [some "0x01", some "0x02"]) ∧
    (row ["0x01", "0x02"]).keysLiteral ≠ (row ["0x01"]).keysLiteral := by
  intro row
  obtain ⟨-, -, hkept, hequal⟩ := accessList_keys_kept [row ["0x01", "0x02"], row ["0x01"]]
  obtain ⟨text, htext, hread⟩ := hkept (row ["0x01", "0x02"]) _ rfl
  have hkeys : ∀ key ∈ ["0x01", "0x02"], Sql.NeedsNoQuotes key := by decide +kernel
  have heq := hequal (row ["0x01", "0x02"]) (row ["0x01"]) _ _ rfl rfl (by decide +kernel)
  exact ⟨⟨text, htext, hread.mpr hkeys⟩, heq.not.mpr (by decide)⟩

/-- **Keys are joined without quotes.** Two elements of access lists are upgraded, one without keys
and one with a single empty key. The insert gets one text for both, which is read as no keys. -/
theorem accessList_keys_lost :
    let range : BlockRange := ⟨5, 6, by decide, by decide⟩
    let element (hash : String) (keys : List String) : OldRow .accessListElements :=
      (⟨"5", hash, 0, none, some keys⟩ : OldAccessListElement)
    let rows : List NewAccessListElement := [⟨"0xa", 0, none, some []⟩, ⟨"0xb", 0, none, some [""]⟩]
    ∃ insert upgraded, Sql.Insert.read Table.accessListElements.writeQuery = some insert ∧
      Table.accessListElements.upgrade range
        ⟨.accessListElements, [element "0xa" [], element "0xb" [""]]⟩ = .ok upgraded ∧
      upgraded.rows = ⟨.accessListElements, rows⟩ ∧
      insert.array? upgraded.rows.columns "storage_keys" =
        some [.text "\x7b\x7d", .text "\x7b\x7d"] ∧
      Sql.readArray? ['{', '}'] = some [] := by
  intro range element rows
  obtain ⟨insert, hread, harray⟩ := Sql.exists_insert_storageKeys
  exact ⟨insert, _, hread, rfl, rfl, harray rows, by decide +kernel⟩

end ChainMigration
