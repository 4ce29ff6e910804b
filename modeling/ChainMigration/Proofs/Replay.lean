import ChainMigration.Proofs.Outcome
import Mathlib.Data.List.Perm.Basic

/-! # Replaying gaps

Gaps are there to be migrated again. Over a source of rows in order (`Source`), a first run in which
reads and writes may fail, and a second run without failures over exactly the ranges of the gaps
that the first one told, together write what one run without failures writes (`replay_gaps`). A gap
is never too narrow, as the second run would miss rows, and never too wide, as it would write rows
twice: range by range, what was written and what the gaps lead to make up the whole range
(`replay_range`). -/

namespace ChainMigration

variable {t : Table} {p : Policy} {ends flawed sound : Endpoints} {range : BlockRange}

/-! ### Runs -/

/-- Rows that are written, each with its table. -/
def Outcome.rowsWritten (o : Outcome) : List ((t : Table) × NewRow t) :=
  o.written.toList.flatMap fun new => new.rows.map (⟨new.table, ·⟩)

/-- The rows that are written when ranges are worked on one after the other. -/
def rowsWritten (ends : Endpoints) (p : Policy) (t : Table) (ranges : List BlockRange) :
    List ((t : Table) × NewRow t) :=
  ranges.flatMap fun range => (processRange ends p t range).rowsWritten

/-- The ranges of all gaps that are told when ranges are worked on one after the other. -/
def gapsTold (ends : Endpoints) (p : Policy) (t : Table) (ranges : List BlockRange) :
    List BlockRange :=
  ranges.flatMap fun range => (processRange ends p t range).gapRanges

/-! ### Sources -/

/-- The rows of a table before the migration: each has a height, the heights are in the order that
the table promises, and the table's upgrade accepts each row by itself. -/
structure Source (t : Table) where
  rows : List (OldRow t)
  height_isSome : ∀ row ∈ rows, row.height?.isSome
  ordered : t.continuity.Ordered (heightsOf rows)
  accepted : ∀ row ∈ rows, ∃ range upgraded, t.upgrade range ⟨t, [row]⟩ = .ok upgraded

/-- The rows with a height in a range. -/
def rowsWithin (rows : List (OldRow t)) (range : BlockRange) : List (OldRow t) :=
  rows.filter fun row => row.height?.any range.contains

/-- The reader answers exactly the rows with a height in the range. -/
def Endpoints.Reads (ends : Endpoints) (s : Source t) (range : BlockRange) : Prop :=
  ends.read t range = .ok ⟨t, rowsWithin s.rows range⟩

/-- Endpoints that never fail: every read answers the rows of the source, every write succeeds. -/
structure Endpoints.Sound (ends : Endpoints) (s : Source t) : Prop where
  reads : ∀ range, ends.Reads s range
  writes : ∀ range new, ∃ count, ends.write t range new = .ok count

theorem heightsOf_rowsWithin (rows : List (OldRow t)) (range : BlockRange) :
    heightsOf (rowsWithin rows range) = (heightsOf rows).filter (· ∈ range.heights) := by
  unfold heightsOf rowsWithin
  rw [List.filterMap_filter, List.filter_filterMap]
  refine List.filterMap_congr fun row _ => ?_
  cases row.height? with
  | none => rfl
  | some height =>
    rw [Option.any_some, Option.filter_some]
    refine if_congr ?_ rfl rfl
    rw [BlockRange.contains_iff, decide_eq_true_iff]

theorem mem_heightsOf_rowsWithin {rows : List (OldRow t)} {height : Nat} :
    height ∈ heightsOf (rowsWithin rows range) ↔
      height ∈ heightsOf rows ∧ height ∈ range.heights := by
  rw [heightsOf_rowsWithin, List.mem_filter, decide_eq_true_iff]

namespace Source

variable (s : Source t)

theorem exists_becomes {row : OldRow t} (h : row ∈ s.rows) : ∃ new, row.Becomes new := by
  obtain ⟨range, upgraded, hup⟩ := s.accepted row h
  obtain ⟨rows, news, w, hrows, -, -, hall⟩ := Table.upgrade_eq_ok.mp hup
  cases hrows
  obtain ⟨new, -, hb, -, -⟩ := List.forall₂_cons_left_iff.mp hall
  exact ⟨new, hb⟩

theorem exists_forall₂_becomes {rows : List (OldRow t)} (h : ∀ row ∈ rows, row ∈ s.rows) :
    ∃ news, List.Forall₂ OldRow.Becomes rows news := by
  induction rows with
  | nil => exact ⟨[], .nil⟩
  | cons row rows ih =>
    rw [List.forall_mem_cons] at h
    obtain ⟨new, hnew⟩ := s.exists_becomes h.1
    obtain ⟨news, hnews⟩ := ih h.2
    exact ⟨new :: news, .cons hnew hnews⟩

theorem mem_of_mem_within : ∀ row ∈ rowsWithin s.rows range, row ∈ s.rows :=
  fun _ => List.mem_of_mem_filter

/-- **The rows of a range are upgraded together**: restricting the source to a range leaves the
order of heights intact. -/
theorem exists_upgrade (range : BlockRange) :
    ∃ upgraded, t.upgrade range ⟨t, rowsWithin s.rows range⟩ = .ok upgraded := by
  have hmem : ∀ row ∈ rowsWithin s.rows range, row ∈ s.rows := s.mem_of_mem_within
  obtain ⟨news, hnews⟩ := s.exists_forall₂_becomes hmem
  have hpass : ∃ w, PassAll (rowsWithin s.rows range) (.begin range t.continuity) w := by
    unfold PassAll
    by_cases hc : t.continuity = .none
    · exact ⟨_, by rw [if_pos hc]⟩
    · have hord : t.continuity.Ordered (heightsOf (rowsWithin s.rows range)) := by
        rw [heightsOf_rowsWithin]
        exact s.ordered.sublist List.filter_sublist
      obtain ⟨w, hw⟩ := HeightWalk.exists_observeAll_begin hc hord
        fun k hk => (mem_heightsOf_rowsWithin.mp hk).2
      refine ⟨w, ?_⟩
      rw [if_neg hc]
      exact ⟨fun row h => s.height_isSome row (hmem row h), hw⟩
  obtain ⟨w, hw⟩ := hpass
  exact ⟨_, Table.upgrade_eq_ok.mpr ⟨_, news, w, rfl, rfl, hw, hnews⟩⟩

theorem within_missing_eq_nil {missing : BlockRange} {upgraded : Upgraded}
    (hup : t.upgrade range ⟨t, rowsWithin s.rows range⟩ = .ok upgraded)
    (hm : missing ∈ upgraded.missing) : rowsWithin s.rows missing = [] := by
  by_cases hc : t.continuity = .none
  · rw [Table.missing_of_none hc hup] at hm
    cases hm
  · rw [rowsWithin, List.filter_eq_nil_iff]
    intro row hrow hin
    obtain ⟨height, hheight, hin⟩ := (Option.any_eq_true ..).mp hin
    have hmem : height ∈ heightsIn upgraded.missing :=
      mem_heightsIn.mpr ⟨missing, hm, BlockRange.contains_iff.mp hin⟩
    rw [(Table.heightsIn_missing hc hup).1, List.mem_filter, decide_eq_true_iff] at hmem
    refine hmem.2 (mem_heightsOf_rowsWithin.mpr ⟨?_, hmem.1⟩)
    exact List.mem_filterMap.mpr ⟨row, hrow, hheight⟩

/-- Endpoints that hold the source, cannot read some ranges and cannot write others. -/
def endpoints (unread unwritten : List BlockRange) : Endpoints where
  read t' range :=
    if range ∈ unread then .error (.read t'.name range (.database (.other "")))
    else .ok (if t' = t then ⟨t, rowsWithin s.rows range⟩ else ⟨t', []⟩)
  write t' range new :=
    if range ∈ unwritten then .error (.write t'.name range (.other ""))
    else .ok new.rows.length
  bounds := .ok (0, 0)
  lastPage _ := .ok 0
  copy _ _ := .ok 0

variable {unread unwritten : List BlockRange}

theorem endpoints_reads (h : range ∉ unread) : (s.endpoints unread unwritten).Reads s range := by
  unfold Endpoints.Reads endpoints
  dsimp only
  rw [if_neg h, if_pos rfl]

theorem endpoints_reads_or_fails :
    (s.endpoints unread unwritten).Reads s range ∨
      ∃ reason, (s.endpoints unread unwritten).read t range = .error reason := by
  by_cases h : range ∈ unread
  · exact Or.inr ⟨_, if_pos h⟩
  · exact Or.inl (s.endpoints_reads h)

theorem endpoints_writes (h : range ∉ unwritten) (new : NewRows) :
    (s.endpoints unread unwritten).write t range new = .ok new.rows.length := if_neg h

theorem endpoints_sound : (s.endpoints [] []).Sound s where
  reads _ := s.endpoints_reads List.not_mem_nil
  writes _ new := ⟨new.rows.length, s.endpoints_writes List.not_mem_nil new⟩

/-! ### Without failures -/

/-- **Without failures** there is nothing to write or the rows of the range are written together. -/
theorem processRange_of_sound (hs : sound.Sound s) (range : BlockRange) :
    (rowsWithin s.rows range = [] ∧ (processRange sound p t range).written = none) ∨
      ∃ upgraded, t.upgrade range ⟨t, rowsWithin s.rows range⟩ = .ok upgraded ∧
        processRange sound p t range = ⟨some upgraded.rows,
          upgraded.missing.map fun missing => .gap .read ⟨missing, .discontinuity⟩⟩ := by
  have hreads := hs.reads range
  have hw := worked_processRange sound p t range
  obtain ⟨full, hfull⟩ := s.exists_upgrade range
  generalize processRange sound p t range = o at hw ⊢
  unfold Endpoints.Reads at hreads
  cases hw with
  | unread hread =>
    rw [hreads] at hread
    cases hread
  | empty hread hrows =>
    rw [hreads] at hread
    cases hread
    exact Or.inl ⟨hrows, rfl⟩
  | rejected hread hrows hup =>
    rw [hreads] at hread
    cases hread
    rw [hfull] at hup
    cases hup
  | refused hread hrows hup hwrite =>
    obtain ⟨count, hok⟩ := hs.writes range (Upgraded.rows _)
    rw [hok] at hwrite
    cases hwrite
  | written hread hrows hup hwrite =>
    rw [hreads] at hread
    cases hread
    exact Or.inr ⟨_, hup, rfl⟩

theorem rowsWritten_of_sound (hs : sound.Sound s) (range : BlockRange) :
    ∃ news, List.Forall₂ OldRow.Becomes (rowsWithin s.rows range) news ∧
      (processRange sound p t range).rowsWritten = news.map (⟨t, ·⟩) := by
  rcases s.processRange_of_sound (p := p) hs range with ⟨hrows, hnone⟩ | ⟨upgraded, hup, ho⟩
  · refine ⟨[], by rw [hrows]; exact .nil, ?_⟩
    rw [Outcome.rowsWritten, hnone]
    rfl
  · obtain ⟨rows, news, w, hr, rfl, -, hall⟩ := Table.upgrade_eq_ok.mp hup
    cases hr
    rw [ho]
    exact ⟨news, hall, List.flatMap_singleton ..⟩

theorem rowsWritten_eq_nil (hs : sound.Sound s) (h : rowsWithin s.rows range = []) :
    (processRange sound p t range).rowsWritten = [] := by
  obtain ⟨news, hall, hw⟩ := s.rowsWritten_of_sound (p := p) hs range
  rw [h, List.forall₂_nil_left_iff] at hall
  rw [hw, hall, List.map_nil]

/-! ### With failures -/

/-- **Range by range the gaps are just wide enough**: what was written and what a run without
failures over the gaps writes are what it writes over the range. -/
theorem replay_range (hs : sound.Sound s) (hside : p.readFailureGap t ≠ none)
    (hf : flawed.Reads s range ∨ ∃ reason, flawed.read t range = .error reason) :
    (processRange flawed p t range).rowsWritten ++
        rowsWritten sound p t (processRange flawed p t range).gapRanges =
      (processRange sound p t range).rowsWritten := by
  have hw := worked_processRange flawed p t range
  obtain ⟨full, hfull⟩ := s.exists_upgrade range
  -- A failure loses the whole range, and the gap is the whole range.
  have hwhole : rowsWritten sound p t [range] = (processRange sound p t range).rowsWritten :=
    List.flatMap_singleton ..
  have hread' : ∀ {old}, flawed.read t range = .ok old → old = ⟨t, rowsWithin s.rows range⟩ := by
    intro old hread
    rcases hf with hf | ⟨reason, hf⟩
    · exact Except.ok.inj (hread.symm.trans hf)
    · rw [hread] at hf
      cases hf
  generalize processRange flawed p t range = o at hw ⊢
  cases hw with
  | @unread reason hread =>
    obtain ⟨kind, hkind⟩ := Option.ne_none_iff_exists'.mp hside
    have hgap : Outcome.gapRanges ⟨none, (p.readFailureGap t).toList.map
        (Notice.gap · ⟨range, .readFailed⟩) ++ [.failure reason]⟩ = [range] := by
      rw [hkind]
      cases kind <;> rfl
    rw [hgap, hwhole]
    rfl
  | empty hread hrows =>
    rw [hread' hread] at hrows
    have hnil : (processRange sound p t range).rowsWritten = [] := s.rowsWritten_eq_nil hs hrows
    rw [hnil]
    cases p.requires t with
    | false => rfl
    | true => exact hwhole.trans hnil
  | rejected hread hrows hup =>
    rw [hread' hread, hfull] at hup
    cases hup
  | refused => exact hwhole
  | @written old upgraded count hread hrows hup hwrite =>
    rw [hread' hread] at hup
    -- The runs found missing hold no rows.
    have hmissing : rowsWritten sound p t upgraded.missing = [] :=
      List.flatMap_eq_nil_iff.mpr fun missing hm =>
        s.rowsWritten_eq_nil hs (s.within_missing_eq_nil hup hm)
    obtain ⟨news, hall, hnews⟩ := s.rowsWritten_of_sound (p := p) hs range
    obtain ⟨rows, news', w, hr, rfl, -, hall'⟩ := Table.upgrade_eq_ok.mp hup
    cases hr
    rw [gapRanges_discontinuities, hmissing, List.append_nil, hnews,
      List.right_unique_forall₂' OldRow.rightUnique_becomes hall' hall]
    exact List.flatMap_singleton ..

/-- The gaps of a run lie in its ranges, and in a required table that promises heights they hold all
heights without a row; without failures they hold no others. -/
theorem mem_gapRanges (hc : t.continuity ≠ .none) (hp : p.requires t = true)
    (hf : ends.Reads s range ∨ ∃ reason, ends.read t range = .error reason) (height : Nat) :
    (height ∈ heightsIn (processRange ends p t range).gapRanges → height ∈ range.heights) ∧
      (height ∈ range.heights → height ∉ heightsOf s.rows →
        height ∈ heightsIn (processRange ends p t range).gapRanges) := by
  have hperm := (worked_processRange ends p t range).perm_heights hc hp
  refine ⟨fun h => hperm.mem_iff.mp (List.mem_append_right _ h), fun h hnot => ?_⟩
  rcases List.mem_append.mp (hperm.mem_iff.mpr h) with h | h
  · refine absurd ?_ hnot
    unfold Outcome.heightsWritten at h
    rcases hf with hf | ⟨reason, hf⟩
    · rw [hf] at h
      split at h
      · next hread =>
        cases hread
        exact (mem_heightsOf_rowsWithin.mp (List.mem_dedup.mp h)).1
      · cases h
    · rw [hf] at h
      split at h
      · next hread => cases hread
      · cases h
  · exact h

theorem not_mem_of_mem_gapRanges (hs : sound.Sound s) (hc : t.continuity ≠ .none)
    (hp : p.requires t = true) {height : Nat}
    (h : height ∈ heightsIn (processRange sound p t range).gapRanges) :
    height ∉ heightsOf s.rows := by
  intro hmem
  have hin := (s.mem_gapRanges hc hp (Or.inl (hs.reads range)) height).1 h
  have hwithin := mem_heightsOf_rowsWithin.mpr ⟨hmem, hin⟩
  rcases s.processRange_of_sound (p := p) hs range with ⟨hrows, -⟩ | ⟨upgraded, hup, ho⟩
  · rw [hrows] at hwithin
    cases hwithin
  · rw [ho, gapRanges_discontinuities, (Table.heightsIn_missing hc hup).1, List.mem_filter,
      decide_eq_true_iff] at h
    exact h.2 hwithin

/-! ### Many ranges -/

/-- **Over many ranges the gaps are just wide enough.** -/
theorem perm_rowsWritten_gapsTold {ranges : List BlockRange} (hs : sound.Sound s)
    (hside : p.readFailureGap t ≠ none)
    (hf : ∀ range ∈ ranges, flawed.Reads s range ∨ ∃ reason, flawed.read t range = .error reason) :
    (rowsWritten flawed p t ranges ++ rowsWritten sound p t (gapsTold flawed p t ranges)).Perm
      (rowsWritten sound p t ranges) := by
  have hrange : (ranges.flatMap fun range => (processRange flawed p t range).rowsWritten ++
      rowsWritten sound p t (processRange flawed p t range).gapRanges) =
        rowsWritten sound p t ranges :=
    List.flatMap_congr fun range h => s.replay_range hs hside (hf range h)
  rw [← hrange, rowsWritten, rowsWritten, gapsTold, List.flatMap_assoc]
  exact List.flatMap_append_perm ..

theorem exists_rowsWritten (hs : sound.Sound s) (ranges : List BlockRange) :
    ∃ news, List.Forall₂ OldRow.Becomes (ranges.flatMap (rowsWithin s.rows)) news ∧
      rowsWritten sound p t ranges = news.map (⟨t, ·⟩) := by
  induction ranges with
  | nil => exact ⟨[], .nil, rfl⟩
  | cons range ranges ih =>
    obtain ⟨news, hall, hnews⟩ := s.rowsWritten_of_sound (p := p) hs range
    obtain ⟨more, hall', hmore⟩ := ih
    refine ⟨news ++ more, ?_, ?_⟩
    · rw [List.flatMap_cons]
      exact List.rel_append hall hall'
    · rw [rowsWritten] at hmore ⊢
      rw [List.flatMap_cons, hnews, hmore, List.map_append]

theorem perm_flatMap_rowsWithin {ranges : List BlockRange}
    (hdisj : ranges.Pairwise fun r r' => r.heights.Disjoint r'.heights) :
    (ranges.flatMap (rowsWithin s.rows)).Perm
      (s.rows.filter fun row => ranges.any fun range => row.height?.any range.contains) := by
  induction ranges with
  | nil => rw [List.filter_eq_nil_iff.mpr fun _ _ => by rw [List.any_nil]; decide]; exact .nil
  | cons range ranges ih =>
    obtain ⟨hrange, hranges⟩ := List.pairwise_cons.mp hdisj
    set inRange : OldRow t → Bool := fun row => row.height?.any range.contains with hin
    set inRest : OldRow t → Bool :=
      fun row => ranges.any fun range => row.height?.any range.contains with hrest
    -- The rows of the first range are in none of the others.
    have hsplit : ∀ row, inRest row = (!inRange row && (inRange row || inRest row)) := by
      intro row
      cases hr : inRange row with
      | false => rw [Bool.false_or, Bool.not_false, Bool.true_and]
      | true =>
        rw [Bool.not_true, Bool.false_and, hrest, List.any_eq_false]
        intro other hother hmem
        obtain ⟨height, hheight, hc⟩ := (Option.any_eq_true ..).mp hr
        rw [hheight, Option.any_some] at hmem
        exact hrange other hother (BlockRange.contains_iff.mp hc) (BlockRange.contains_iff.mp hmem)
    have hfirst : ∀ row, inRange row = (inRange row && (inRange row || inRest row)) := by
      intro row
      cases inRange row <;> rfl
    simp only [List.flatMap_cons, List.any_cons]
    refine List.Perm.trans (ih hranges |>.append_left _) ?_
    rw [rowsWithin, List.filter_congr fun row _ => hfirst row, List.filter_congr fun row _ =>
      hsplit row, ← List.filter_filter, ← List.filter_filter]
    exact List.filter_append_perm ..

end Source

theorem mem_heightsIn_gapsTold {ranges : List BlockRange} {height : Nat} :
    height ∈ heightsIn (gapsTold ends p t ranges) ↔
      ∃ range ∈ ranges, height ∈ heightsIn (processRange ends p t range).gapRanges := by
  rw [heightsIn, gapsTold, List.flatMap_assoc, List.mem_flatMap]
  rfl

/-! ### Two runs -/

/-- **Replaying the gaps completes a migration.** Let reads and writes fail in a first run over
ranges as they may, and let a second run work without failures on exactly the ranges of the gaps
that the first one told, in any order. Then the two runs together write what one run without
failures over the ranges writes, and if the ranges do not overlap that is every row of the source
with a height in one of them, once. In a required table that promises heights, the gaps of the
second run hold exactly the heights of the ranges without a row. -/
theorem replay_gaps (s : Source t) (flawed sound : Endpoints) (ranges again : List BlockRange)
    (hside : p.readFailureGap t ≠ none)
    (hdisj : ranges.Pairwise fun r r' => r.heights.Disjoint r'.heights)
    (hflawed : ∀ range ∈ ranges,
      flawed.Reads s range ∨ ∃ reason, flawed.read t range = .error reason)
    (hsound : sound.Sound s) (hagain : again.Perm (gapsTold flawed p t ranges)) :
    (rowsWritten flawed p t ranges ++ rowsWritten sound p t again).Perm
        (rowsWritten sound p t ranges) ∧
      (∃ news, List.Forall₂ OldRow.Becomes
          (s.rows.filter fun row => ranges.any fun range => row.height?.any range.contains) news ∧
        (rowsWritten sound p t ranges).Perm (news.map (⟨t, ·⟩))) ∧
      (t = .headers ∨ t = .state ∨ t = .accounts → p.requires t = true →
        ∀ height, height ∈ heightsIn (gapsTold sound p t again) ↔
          height ∈ heightsIn ranges ∧ height ∉ heightsOf s.rows) := by
  have hreplayed := s.perm_rowsWritten_gapsTold (p := p) hsound hside hflawed
  have hpromises : t = .headers ∨ t = .state ∨ t = .accounts → t.continuity ≠ .none := by
    rintro (rfl | rfl | rfl) <;> decide
  refine ⟨?_, ?_, fun ht hp height => ?_⟩
  · exact ((hagain.flatMap_right _).append_left _).trans hreplayed
  · obtain ⟨news, hall, hnews⟩ := s.exists_rowsWritten (p := p) hsound ranges
    obtain ⟨news', hall', hperm⟩ :=
      List.perm_comp_forall₂ (s.perm_flatMap_rowsWithin hdisj).symm hall
    refine ⟨news', hall', ?_⟩
    rw [hnews]
    exact (hperm.map _).symm
  have hc := hpromises ht
  have hfirst := fun range h => s.mem_gapRanges hc hp (hflawed range h) height
  have hsecond := fun gap => s.mem_gapRanges hc hp (Or.inl (hsound.reads gap)) height
  refine ⟨fun h => ?_, fun h => ?_⟩
  · obtain ⟨gap, hgap, hin⟩ := mem_heightsIn_gapsTold.mp h
    have hnot := s.not_mem_of_mem_gapRanges hsound hc hp hin
    have htold : height ∈ heightsIn (gapsTold flawed p t ranges) :=
      mem_heightsIn.mpr ⟨gap, hagain.mem_iff.mp hgap, (hsecond gap).1 hin⟩
    obtain ⟨range, hrange, hin⟩ := mem_heightsIn_gapsTold.mp htold
    exact ⟨mem_heightsIn.mpr ⟨range, hrange, (hfirst range hrange).1 hin⟩, hnot⟩
  · obtain ⟨range, hrange, hin⟩ := mem_heightsIn.mp h.1
    have htold : height ∈ heightsIn (gapsTold flawed p t ranges) :=
      mem_heightsIn_gapsTold.mpr ⟨range, hrange, (hfirst range hrange).2 hin h.2⟩
    obtain ⟨gap, hgap, hin⟩ := mem_heightsIn.mp htold
    exact mem_heightsIn_gapsTold.mpr
      ⟨gap, hagain.mem_iff.mpr hgap, (hsecond gap).2 hin h.2⟩

/-- State nodes at three heights. -/
def sparseNodes : Source .state where
  rows := [stateNodeAt "3", stateNodeAt "5", stateNodeAt "8"]
  height_isSome := by decide +kernel
  ordered := by decide +kernel
  accepted := by
    refine List.forall_mem_cons.mpr ⟨?_, List.forall_mem_cons.mpr ⟨?_, ?_⟩⟩
    · exact ⟨⟨3, 8, by decide, by decide⟩, _, rfl⟩
    · exact ⟨⟨3, 8, by decide, by decide⟩, _, rfl⟩
    · exact List.forall_mem_singleton.mpr ⟨⟨3, 8, by decide, by decide⟩, _, rfl⟩

/-- A failed read, a failed write and a run of missing heights are replayed together. -/
theorem sparseNodes_replayed :
    let p : Policy := ⟨1, [.state], false⟩
    let low : BlockRange := ⟨3, 4, by decide, by decide⟩
    let middle : BlockRange := ⟨5, 6, by decide, by decide⟩
    let high : BlockRange := ⟨7, 8, by decide, by decide⟩
    let flawed := sparseNodes.endpoints [low] [middle]
    let sound := sparseNodes.endpoints [] []
    let again := gapsTold flawed p .state [low, middle, high]
    again = [low, middle, ⟨7, 7, by decide, by decide⟩] ∧
      (rowsWritten flawed p .state [low, middle, high] ++ rowsWritten sound p .state again).Perm
        (rowsWritten sound p .state [low, middle, high]) ∧
      ∀ height, height ∈ heightsIn (gapsTold sound p .state again) ↔
        height ∈ heightsIn [low, middle, high] ∧ height ∉ heightsOf sparseNodes.rows := by
  intro p low middle high flawed sound again
  have hreplay := replay_gaps (p := p) sparseNodes flawed sound [low, middle, high] again
    (by decide) (List.Pairwise.imp BlockRange.disjoint_of_stop_lt (by decide))
    (fun _ _ => sparseNodes.endpoints_reads_or_fails) sparseNodes.endpoints_sound (List.Perm.refl _)
  exact ⟨by decide +kernel, hreplay.1, hreplay.2.2 (by decide) (by decide)⟩

end ChainMigration
