import ChainMigration.Proofs.Replay
import ChainMigration.Proofs.Segments

/-! # The size of the segments does not matter

Where a source has no row, the gap is found in one of four ways: before the first row of a range,
between two of its rows, behind the last one, or because the range has no rows at all. Which one it
is depends on where the interval is cut. Without failures the outcome does not: however an interval
is cut and in whatever order its ranges are worked on, the rows of the source in the interval are
written once each, and the heights of the gaps are those of the interval without a row
(`segment_size_irrelevant`).

Everything follows from the heights of the ranges alone. Ranges whose heights are those of the
interval, each once, have the rows of the interval among them (`Source.perm_within_cover`). -/

namespace ChainMigration

variable {t : Table} {p : Policy} {sound sound' : Endpoints}

/-- The gaps that are told on a side when ranges are worked on one after the other. -/
def gapsOn (ends : Endpoints) (p : Policy) (t : Table) (kind : GapKind)
    (ranges : List BlockRange) : List Gap :=
  ranges.flatMap fun range => (processRange ends p t range).gaps kind

theorem mem_gapsOn {ends : Endpoints} {kind : GapKind} {ranges : List BlockRange} {gap : Gap} :
    gap ∈ gapsOn ends p t kind ranges ↔
      ∃ range ∈ ranges, gap ∈ (processRange ends p t range).gaps kind := List.mem_flatMap

namespace Source

variable (s : Source t) {whole : BlockRange} {ranges : List BlockRange}

/-! ### Rows -/

theorem perm_within_cover (hcover : (heightsIn ranges).Perm whole.heights) :
    (ranges.flatMap (rowsWithin s.rows)).Perm (rowsWithin s.rows whole) := by
  have hnodup : (heightsIn ranges).Nodup := hcover.nodup_iff.mpr whole.nodup_heights
  have hany : ∀ height, ranges.any (·.contains height) = whole.contains height := by
    intro height
    rw [Bool.eq_iff_iff, BlockRange.contains_iff, ← hcover.mem_iff, mem_heightsIn, List.any_eq_true]
    simp only [BlockRange.contains_iff]
  refine (s.perm_flatMap_rowsWithin (pairwise_disjoint_iff.mpr hnodup)).trans (.of_eq ?_)
  refine List.filter_congr fun row _ => ?_
  cases row.height? with
  | none => exact List.any_eq_false.mpr fun _ _ => Bool.false_ne_true
  | some height => exact hany height

theorem perm_rowsWritten_cover (hs : sound.Sound s)
    (hcover : (heightsIn ranges).Perm whole.heights) :
    ∃ news, List.Forall₂ OldRow.Becomes (rowsWithin s.rows whole) news ∧
      (rowsWritten sound p t ranges).Perm (news.map (⟨t, ·⟩)) := by
  obtain ⟨news, hall, hnews⟩ := s.exists_rowsWritten (p := p) hs ranges
  obtain ⟨news', hall', hperm⟩ :=
    List.perm_comp_forall₂ (s.perm_within_cover hcover).symm hall
  exact ⟨news', hall', hnews ▸ (hperm.map _).symm⟩

/-! ### Gaps -/

theorem gaps_write_of_sound (hs : sound.Sound s) (range : BlockRange) :
    (processRange sound p t range).gaps .write = [] := by
  rcases s.processRange_of_sound (p := p) hs range with ⟨hrows, -⟩ | ⟨upgraded, -, ho⟩
  · have hread := hs.reads range
    unfold Endpoints.Reads at hread
    rw [hrows] at hread
    rw [processRange, hread]
    cases hp : p.requires t <;> simp [afterRead, hp, Outcome.gaps, Notice.gap?]
  · rw [ho]
    exact filterMap_gap?_discontinuities upgraded.missing .write

theorem gapsOn_write_of_sound (hs : sound.Sound s) (ranges : List BlockRange) :
    gapsOn sound p t .write ranges = [] :=
  List.flatMap_eq_nil_iff.mpr fun range _ => s.gaps_write_of_sound hs range

/-- Without failures the gaps of a range in a required table that promises heights hold the heights
of the range without a row. -/
theorem mem_gaps_read_iff (hs : sound.Sound s) (hc : t.continuity ≠ .none)
    (hp : p.requires t = true) (range : BlockRange) (height : Nat) :
    height ∈ heightsIn (((processRange sound p t range).gaps .read).map (·.range)) ↔
      height ∈ range.heights ∧ height ∉ heightsOf s.rows := by
  have hranges : (processRange sound p t range).gapRanges =
      ((processRange sound p t range).gaps .read).map (·.range) := by
    rw [Outcome.gapRanges, s.gaps_write_of_sound hs, List.append_nil]
  have hgaps := s.mem_gapRanges hc hp (Or.inl (hs.reads range)) height
  rw [← hranges]
  exact ⟨fun h => ⟨hgaps.1 h, s.not_mem_of_mem_gapRanges hs hc hp h⟩, fun h => hgaps.2 h.1 h.2⟩

theorem mem_gapsOn_read_iff (hs : sound.Sound s) (hc : t.continuity ≠ .none)
    (hp : p.requires t = true) (ranges : List BlockRange) (height : Nat) :
    height ∈ heightsIn ((gapsOn sound p t .read ranges).map (·.range)) ↔
      height ∈ heightsIn ranges ∧ height ∉ heightsOf s.rows := by
  have hrange := s.mem_gaps_read_iff hs hc hp
  have hsplit : height ∈ heightsIn ((gapsOn sound p t .read ranges).map (·.range)) ↔
      ∃ range ∈ ranges,
        height ∈ heightsIn (((processRange sound p t range).gaps .read).map (·.range)) := by
    simp only [mem_heightsIn, List.mem_map, mem_gapsOn]
    grind
  rw [hsplit, mem_heightsIn]
  simp only [hrange]
  grind

end Source

/-! ### Two sizes -/

/-- **The size of the segments does not matter.** Cut an interval into segments of two sizes and
work on the segments of each cut in any order, without failures. Both times the same rows are
written, which are the new forms of the rows of the interval, once each; no gap is told on the write
side; and the gaps on the read side hold the same heights, which are those of the interval without a
row in the source. -/
theorem segment_size_irrelevant (s : Source t)
    (ht : t = .headers ∨ t = .state ∨ t = .accounts) (hp : p.requires t = true)
    (hs : sound.Sound s) (hs' : sound'.Sound s) {start stop size size' : UInt64}
    (hle : start ≤ stop) (hsize : size ≠ 0) (hsize' : size' ≠ 0) :
    ∃ cut cut', segment size start stop = .ok cut ∧ segment size' start stop = .ok cut' ∧
      ∀ ranges ranges', ranges.Perm cut → ranges'.Perm cut' →
        (rowsWritten sound p t ranges).Perm (rowsWritten sound' p t ranges') ∧
        (∃ news, List.Forall₂ OldRow.Becomes
            (rowsWithin s.rows ⟨start.toNat, stop.toNat, hle, stop.toNat_lt⟩) news ∧
          (rowsWritten sound p t ranges).Perm (news.map (⟨t, ·⟩))) ∧
        gapsOn sound p t .write ranges = [] ∧ gapsOn sound' p t .write ranges' = [] ∧
        ∀ height,
          (height ∈ heightsIn ((gapsOn sound p t .read ranges).map (·.range)) ↔
            (start.toNat ≤ height ∧ height ≤ stop.toNat) ∧ height ∉ heightsOf s.rows) ∧
          (height ∈ heightsIn ((gapsOn sound' p t .read ranges').map (·.range)) ↔
            (start.toNat ≤ height ∧ height ≤ stop.toNat) ∧ height ∉ heightsOf s.rows) := by
  have hc : t.continuity ≠ .none := by rcases ht with rfl | rfl | rfl <;> decide
  obtain ⟨cut, hcut, hseg⟩ := exists_segment hsize hle
  obtain ⟨cut', hcut', hseg'⟩ := exists_segment hsize' hle
  refine ⟨cut, cut', hcut, hcut', fun ranges ranges' hranges hranges' => ?_⟩
  set whole : BlockRange := ⟨start.toNat, stop.toNat, hle, stop.toNat_lt⟩ with hwhole
  have hcover : (heightsIn ranges).Perm whole.heights :=
    (hranges.flatMap_right _).trans (.of_eq hseg.heights)
  have hcover' : (heightsIn ranges').Perm whole.heights :=
    (hranges'.flatMap_right _).trans (.of_eq hseg'.heights)
  obtain ⟨news, hnews, hperm⟩ := s.perm_rowsWritten_cover (p := p) hs hcover
  obtain ⟨news', hnews', hperm'⟩ := s.perm_rowsWritten_cover (p := p) hs' hcover'
  have hsame : news' = news := List.right_unique_forall₂' OldRow.rightUnique_becomes hnews' hnews
  have hmem : ∀ height, height ∈ whole.heights ↔ start.toNat ≤ height ∧ height ≤ stop.toNat :=
    fun _ => BlockRange.mem_heights
  refine ⟨hperm.trans (hsame ▸ hperm'.symm), ⟨news, hnews, hperm⟩,
    s.gapsOn_write_of_sound hs ranges, s.gapsOn_write_of_sound hs' ranges', fun height => ?_⟩
  rw [s.mem_gapsOn_read_iff hs hc hp, s.mem_gapsOn_read_iff hs' hc hp, hcover.mem_iff,
    hcover'.mem_iff, hmem]
  exact ⟨Iff.rfl, Iff.rfl⟩

/-- State nodes at the heights 3, 5 and 8 of the interval from 2 to 9, cut into segments of two and
of three heights: the cuts tell different gaps over the same heights. -/
theorem sparseNodes_segment_size :
    let p : Policy := ⟨1, [.state], false⟩
    let sound := sparseNodes.endpoints [] []
    ∃ cut cut', segment 2 2 9 = .ok cut ∧ segment 3 2 9 = .ok cut' ∧
      (rowsWritten sound p .state cut).Perm (rowsWritten sound p .state cut'.reverse) ∧
      ∀ height, height ∈ heightsIn ((gapsOn sound p .state .read cut'.reverse).map (·.range)) ↔
        (2 ≤ height ∧ height ≤ 9) ∧ height ∉ heightsOf sparseNodes.rows := by
  intro p sound
  obtain ⟨cut, cut', hcut, hcut', h⟩ := segment_size_irrelevant (p := p) sparseNodes
    (by decide) (by decide) sparseNodes.endpoints_sound sparseNodes.endpoints_sound
    (show (2 : UInt64) ≤ 9 by decide) (show (2 : UInt64) ≠ 0 by decide)
    (show (3 : UInt64) ≠ 0 by decide)
  obtain ⟨hrows, -, -, -, hgaps⟩ := h cut cut'.reverse (List.Perm.refl _) cut'.reverse_perm
  exact ⟨cut, cut', hcut, hcut', hrows, fun height => (hgaps height).2⟩

end ChainMigration
