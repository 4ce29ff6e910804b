import ChainMigration.Proofs.ConnectionStatements
import ChainMigration.Proofs.Decimal
import ChainMigration.Proofs.PageTransfer
import ChainMigration.Proofs.WrittenHex

/-! # The place of the last row

A text denotes the place of a row if it is a pair of decimal numbers between parentheses, the first
comma between them (`DenotesPlace`). It denotes one place at most, and its page is read exactly if
both numbers have no more than 64 bits (`DenotesPlace.pageOfPlace?_eq`); of any other text nothing
is read. So a foreign table either tells its last page or has none (`Connection.lastPage_eq_ok`),
and a transfer up to it leaves no page out. All of this is put together in `lastPage_exact`. -/

namespace ChainMigration

variable {cs before after : List Char} {text : String} {page row : Nat}

/-! ### Reading a place -/

theorem Text.Denotes.unique {m n : Nat} (hm : Text.Denotes cs m) (hn : Text.Denotes cs n) :
    m = n := by
  have hread {k : Nat} (h : Text.Denotes cs k) (hk : k < m + n + 1) :
      Text.readUnsigned (m + n + 1) cs = .ok k :=
    (Text.readUnsigned_eq_ok_iff (Nat.succ_pos _)).mpr ⟨h, hk⟩
  exact Except.ok.inj ((hread hm (by omega)).symm.trans (hread hn (by omega)))

theorem enclosed?_eq_some_iff {inner : List Char} :
    enclosed? cs = some inner ↔ cs = '(' :: (inner ++ [')']) := by
  unfold enclosed?
  split
  · next rest =>
    rw [Option.ite_none_right_eq_some, List.cons_inj_right]
    constructor
    · rintro ⟨hlast, h⟩
      cases h
      exact (List.dropLast_append_getLast? _ hlast).symm
    · rintro rfl
      exact ⟨List.getLast?_concat, congrArg some List.dropLast_concat⟩
  · next hopen =>
    refine iff_of_false nofun fun h => hopen _ h

theorem cutAtComma?_eq_some_iff :
    cutAtComma? cs = some (before, after) ↔ cs = before ++ ',' :: after ∧ ',' ∉ before := by
  induction cs generalizing before with
  | nil =>
    refine iff_of_false nofun fun h => ?_
    exact List.append_ne_nil_of_right_ne_nil _ (List.cons_ne_nil _ _) h.1.symm
  | cons c cs ih =>
    by_cases hc : c = ','
    · subst hc
      rw [cutAtComma?, Option.some.injEq, Prod.mk.injEq]
      cases before with
      | nil => simp
      | cons d before =>
        refine iff_of_false (fun h => List.cons_ne_nil _ _ h.1.symm) ?_
        rintro ⟨h, hcomma⟩
        exact hcomma ((List.cons.inj h).1 ▸ List.mem_cons_self)
    · rw [cutAtComma?]
      · cases before with
        | nil => simp [hc]
        | cons d before =>
          rw [Option.map_eq_some_iff, List.cons_append, List.cons.injEq, List.mem_cons, not_or]
          constructor
          · rintro ⟨⟨front, rest⟩, hcut, heq⟩
            cases heq
            obtain ⟨hcs, hcomma⟩ := ih.mp hcut
            exact ⟨⟨rfl, hcs⟩, fun h => hc h.symm, hcomma⟩
          · rintro ⟨⟨rfl, hcs⟩, -, hcomma⟩
            exact ⟨(before, after), ih.mpr ⟨hcs, hcomma⟩, rfl⟩
      · exact hc

theorem wordBetweenBlanks?_eq_some_iff {n : Nat} : wordBetweenBlanks? cs = some n ↔
    Text.Denotes (Text.trimmed cs) n ∧ n < UInt64.size := by
  rw [wordBetweenBlanks?, toOption_eq_some, Text.readUnsigned_eq_ok_iff (by decide)]

/-- **The text denotes the place of a row**: between parentheses, a page and, behind the first
comma, the number of a row in it, each in decimal digits with or without a plus sign, and blanks
around the numbers and the whole. -/
def DenotesPlace (text : String) (page row : Nat) : Prop :=
  ∃ before after, Text.trimmed text.toList = '(' :: (before ++ ',' :: after ++ [')']) ∧
    ',' ∉ before ∧ Text.Denotes (Text.trimmed before) page ∧ Text.Denotes (Text.trimmed after) row

/-- **A page is read** exactly from the texts that denote a place in which both numbers have no more
than 64 bits. -/
theorem pageOfPlace?_eq_some_iff : pageOfPlace? text = some page ↔
    ∃ row, DenotesPlace text page row ∧ page < UInt64.size ∧ row < UInt64.size := by
  simp only [pageOfPlace?, Option.bind_eq_bind, Option.bind_eq_some_iff, Prod.exists,
    enclosed?_eq_some_iff, cutAtComma?_eq_some_iff, wordBetweenBlanks?_eq_some_iff]
  constructor
  · rintro ⟨_, htext, before, after, ⟨rfl, hcomma⟩, row, ⟨hrow, hrowlt⟩, hpage, hpagelt⟩
    exact ⟨row, ⟨before, after, htext, hcomma, hpage, hrow⟩, hpagelt, hrowlt⟩
  · rintro ⟨row, ⟨before, after, htext, hcomma, hpage, hrow⟩, hpagelt, hrowlt⟩
    exact ⟨_, htext, before, after, ⟨rfl, hcomma⟩, row, ⟨hrow, hrowlt⟩, hpage, hpagelt⟩

namespace DenotesPlace

theorem unique {page' row' : Nat} (h : DenotesPlace text page row)
    (h' : DenotesPlace text page' row') : page = page' ∧ row = row' := by
  obtain ⟨before, after, htext, hcomma, hpage, hrow⟩ := h
  obtain ⟨before', after', htext', hcomma', hpage', hrow'⟩ := h'
  have hinner := List.append_cancel_right (List.cons.inj (htext.symm.trans htext')).2
  have hcut : cutAtComma? (before ++ ',' :: after) = some (before, after) :=
    cutAtComma?_eq_some_iff.mpr ⟨rfl, hcomma⟩
  cases hcut.symm.trans (cutAtComma?_eq_some_iff.mpr ⟨hinner, hcomma'⟩)
  exact ⟨hpage.unique hpage', hrow.unique hrow'⟩

theorem pageOfPlace?_eq (h : DenotesPlace text page row) :
    pageOfPlace? text = if page < UInt64.size ∧ row < UInt64.size then some page else none := by
  split
  · next hlt => exact pageOfPlace?_eq_some_iff.mpr ⟨row, h, hlt⟩
  · next hlt =>
    refine Option.eq_none_iff_forall_ne_some.mpr fun page' hread => hlt ?_
    obtain ⟨row', h', hlt'⟩ := pageOfPlace?_eq_some_iff.mp hread
    obtain ⟨rfl, rfl⟩ := h.unique h'
    exact hlt'

end DenotesPlace

/-! ### Written places -/

theorem Text.IsDecimal.word {n : Nat} (h : Text.IsDecimal text n) :
    (∀ c ∈ text.toList, Text.isBlank c = false) ∧ ',' ∉ text.toList ∧
      Text.Denotes (Text.trimmed text.toList) n := by
  have hblank : ∀ c ∈ text.toList, Text.isBlank c = false := by
    intro c hc
    have hdigit := Char.isDigit_iff_toNat.mp (h.digits c hc)
    simp only [Char.reduceToNat] at hdigit
    exact Text.isBlank_of_lt (by omega) (by omega)
  refine ⟨hblank, fun hcomma => absurd (h.digits _ hcomma) (by decide), ?_⟩
  rw [Text.trimmed_of_forall_not_blank hblank]
  exact ⟨text.toList, Or.inl rfl, h.ne_nil, h.digits, h.value⟩

theorem denotesPlace_written (page row : Nat) : DenotesPlace s!"({page},{row})" page row := by
  obtain ⟨hpageBlank, hcomma, hpage⟩ := (Text.isDecimal_toString page).word
  obtain ⟨hrowBlank, -, hrow⟩ := (Text.isDecimal_toString row).word
  have htext : s!"({page},{row})".toList =
      '(' :: ((toString page).toList ++ ',' :: (toString row).toList ++ [')']) := by
    show ("(" ++ toString page ++ "," ++ toString row ++ ")").toList = _
    simp only [String.toList_append, List.append_assoc]
    rfl
  refine ⟨_, _, ?_, hcomma, hpage, hrow⟩
  rw [htext]
  refine Text.trimmed_of_forall_not_blank ?_
  simp only [List.mem_cons, List.mem_append, List.not_mem_nil, or_false]
  rintro c (rfl | (hc | rfl | hc) | rfl)
  · decide
  · exact hpageBlank c hc
  · decide
  · exact hrowBlank c hc
  · decide

/-! ### The last page of a foreign table -/

namespace Connection

variable {c : Connection} {name raw : String}

/-- The last page according to the answer of the database. -/
def toldPage (name : String) : Option String → Except MigrationError UInt64
  | none => .error (.rangeDetection (.noPages name))
  | some raw =>
    match pageOfPlace? raw with
    | some page => .ok (.ofNat page)
    | none => .error (.rangeDetection (.place raw name))

theorem toldPage_eq_ok {place : Option String} {last : UInt64} : toldPage name place = .ok last ↔
    ∃ raw row, place = some raw ∧ DenotesPlace raw last.toNat row ∧ row < UInt64.size := by
  cases place with
  | none => exact iff_of_false nofun (by rintro ⟨_, _, ⟨⟩, _⟩)
  | some raw =>
    have hread : pageOfPlace? raw = some last.toNat ↔
        ∃ row, DenotesPlace raw last.toNat row ∧ row < UInt64.size := by
      simp only [pageOfPlace?_eq_some_iff, last.toNat_lt, true_and]
    simp only [Option.some.injEq, exists_and_left, exists_eq_left', ← hread]
    rw [toldPage]
    cases hpage : pageOfPlace? raw with
    | none => exact iff_of_false nofun nofun
    | some page =>
      obtain ⟨row, -, hlt, -⟩ := pageOfPlace?_eq_some_iff.mp hpage
      rw [Option.some.injEq, Except.ok.injEq, ← UInt64.toNat_inj, UInt64.toNat_ofNat_of_lt' hlt]

theorem result_lastPage (c : Connection) (name : String) : (c.lastPage name).result = (do
    Except.mapError (MigrationError.pool · "querying foreign table max page")
      (if c.closed then .error (.connect .closed) else .ok ())
    let place ←
      ((c.server.execute c.database (.lastPlace name)).mapError .rejected).mapError .database
    toldPage name place) := by
  have hplace := (c.does_execute (.lastPlace name)).mapError MigrationError.database
  refine Comes.result (c := c) (.bind ⟨_, c.does_get.mapError _⟩ fun _ =>
    .bind ⟨_, hplace⟩ fun place => ?_)
  cases place with
  | none => exact ⟨_, c.does_throw _⟩
  | some raw =>
    dsimp only [toldPage]
    cases pageOfPlace? raw with
    | none => exact ⟨_, c.does_throw _⟩
    | some page => exact ⟨_, c.does_pure _⟩

theorem lastPage_eq_ok {last : UInt64} : (c.lastPage name).result = .ok last ↔
    c.closed = false ∧ ∃ raw row,
      c.server.execute c.database (.lastPlace name) = .ok (some raw) ∧
        DenotesPlace raw last.toNat row ∧ row < UInt64.size := by
  have hopen : (if c.closed then Except.error (DatabaseError.connect .closed) else .ok ()) =
      .ok () ↔ c.closed = false := by
    cases c.closed <;> simp
  rw [result_lastPage]
  simp only [↓unit_bind_eq_ok, bind_eq_ok, mapError_eq_ok, hopen]
  refine and_congr_right fun _ => ?_
  constructor
  · rintro ⟨place, hanswer, htold⟩
    obtain ⟨raw, row, rfl, hraw⟩ := toldPage_eq_ok.mp htold
    exact ⟨raw, row, hanswer, hraw⟩
  · rintro ⟨raw, row, hanswer, hraw⟩
    exact ⟨some raw, hanswer, toldPage_eq_ok.mpr ⟨raw, row, rfl, hraw⟩⟩

theorem lastPage_of_place (hc : c.closed = false)
    (hanswer : c.server.execute c.database (.lastPlace name) = .ok (some raw))
    (hraw : DenotesPlace raw page row) : (c.lastPage name).result =
      if page < UInt64.size ∧ row < UInt64.size then .ok (.ofNat page)
      else .error (.rangeDetection (.place raw name)) := by
  rw [result_lastPage, hanswer, hc]
  show toldPage name (some raw) = _
  rw [toldPage, hraw.pageOfPlace?_eq]
  by_cases hlt : page < UInt64.size ∧ row < UInt64.size
  · rw [if_pos hlt, if_pos hlt]
  · rw [if_neg hlt, if_neg hlt]

end Connection

/-- **A transfer goes up to the last page** that the database tells: it schedules every page from
its first one to this one. -/
theorem TransferConfig.schedules_of_place {t : TransferConfig} {c : Connection}
    {page row : UInt64} (hc : c.closed = false)
    (hanswer : c.server.execute c.database (.lastPlace t.tableName) =
      .ok (some s!"({page.toNat},{row.toNat})"))
    (hunset : t.maxPage = 0) (hsize : t.segmentSize ≠ 0) :
    ∃ segments, t.segments (fun name => (c.lastPage name).result) = .ok segments ∧
      t.Schedules page segments := by
  have htold := c.lastPage_of_place hc hanswer (denotesPlace_written _ _)
  rw [if_pos ⟨page.toNat_lt, row.toNat_lt⟩, UInt64.ofNat_toNat] at htold
  have hlast : t.lastPage (fun name => (c.lastPage name).result) = .ok page := by
    rw [lastPage, if_pos hunset]
    exact htold
  obtain ⟨all, -, -, hsegments⟩ := exists_segments hsize hlast
  obtain ⟨last, hlast', -, hschedules⟩ := schedules_of_segments hsegments
  cases hlast.symm.trans hlast'
  exact ⟨_, hsegments, hschedules⟩

/-- **The last page is never misread.** A page is read exactly from the texts that denote a place
whose page and row are numbers of 64 bits, and it is the page of this place; a place with a larger
number is refused. In particular so is read what is written of two numbers. A foreign table tells
its last page exactly if the database answers with such a text, it tells no other page than that of
the place, and a transfer then schedules every page from its first one up to this one. -/
theorem lastPage_exact :
    (∀ text page, pageOfPlace? text = some page ↔
      ∃ row, DenotesPlace text page row ∧ page < UInt64.size ∧ row < UInt64.size) ∧
    (∀ text page row, DenotesPlace text page row → pageOfPlace? text =
      if page < UInt64.size ∧ row < UInt64.size then some page else none) ∧
    (∀ page row : Nat, pageOfPlace? s!"({page},{row})" =
      if page < UInt64.size ∧ row < UInt64.size then some page else none) ∧
    ∀ c : Connection,
      (∀ name last, (c.lastPage name).result = .ok last ↔ c.closed = false ∧ ∃ raw row,
        c.server.execute c.database (.lastPlace name) = .ok (some raw) ∧
          DenotesPlace raw last.toNat row ∧ row < UInt64.size) ∧
      (∀ name raw page row, c.closed = false →
        c.server.execute c.database (.lastPlace name) = .ok (some raw) →
        DenotesPlace raw page row → (c.lastPage name).result =
          if page < UInt64.size ∧ row < UInt64.size then .ok (.ofNat page)
          else .error (.rangeDetection (.place raw name))) ∧
      ∀ (t : TransferConfig) (page row : UInt64), c.closed = false →
        c.server.execute c.database (.lastPlace t.tableName) =
          .ok (some s!"({page.toNat},{row.toNat})") →
        t.maxPage = 0 → t.segmentSize ≠ 0 →
        ∃ segments, t.segments (fun name => (c.lastPage name).result) = .ok segments ∧
          t.Schedules page segments := by
  refine ⟨fun text page => pageOfPlace?_eq_some_iff, fun text page row h => h.pageOfPlace?_eq,
    fun page row => (denotesPlace_written page row).pageOfPlace?_eq, fun c => ⟨fun name last => ?_,
      fun name raw page row hc hanswer hraw => ?_, fun t page row hc hanswer hunset hsize => ?_⟩⟩
  · exact c.lastPage_eq_ok
  · exact c.lastPage_of_place hc hanswer hraw
  · exact t.schedules_of_place hc hanswer hunset hsize

/-- A server whose foreign tables all end with the twelfth row of page 4178. -/
def lastRowServer : Server where
  login _ _ := .ok ()
  execute _ s := match s with
    | .ping | .begin | .commit => .ok ()
    | .heightBounds => .ok (none, none)
    | .read _ _ => .ok []
    | .insert _ _ | .copyPage _ _ => .ok (0 : Nat)
    | .lastPlace _ => .ok (some "(4178,12)")

/-- The page is told, and the pages of the usual transfer are those from 0 to 4178. -/
theorem lastPage_lastRowServer :
    ((⟨lastRowServer, "v3", false⟩ : Connection).lastPage "v2db_public_blocks").result =
      .ok 4178 ∧
    ∃ segments, ({} : TransferConfig).segments (fun name =>
        ((⟨lastRowServer, "v3", false⟩ : Connection).lastPage name).result) = .ok segments ∧
      heightsIn segments = List.range' 0 4179 := by
  obtain ⟨-, -, -, hconnection⟩ := lastPage_exact
  obtain ⟨-, htold, hschedules⟩ := hconnection ⟨lastRowServer, "v3", false⟩
  refine ⟨htold "v2db_public_blocks" _ 4178 12 rfl rfl (denotesPlace_written 4178 12), ?_⟩
  obtain ⟨segments, hsegments, h⟩ := hschedules {} 4178 12 rfl rfl rfl (by decide)
  exact ⟨segments, hsegments, h.pages⟩

end ChainMigration
