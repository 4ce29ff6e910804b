import ChainMigration.Proofs.Heights
import Mathlib.Algebra.Order.Floor.Div

/-! # Segments of an interval

`segment` cuts an interval into ranges of one size, the last one possibly shorter. The ranges follow
one another without a gap, so that all of them together have the heights of the interval, each once
and in order (`Segmented.heights`), and the place of a range in the list tells where it lies
(`Segmented.bounds`). The cursor of the loop is a number of 64 bits, and the last range may end at
the largest of them: then there is no next cursor, but the loop has ended (`segment_partitions`). -/

namespace ChainMigration

variable {ranges : List BlockRange}

/-- **The ranges cut the interval from `start` to `stop`** into pieces of `size` heights. -/
structure Segmented (size start stop : Nat) (ranges : List BlockRange) : Prop where
  heights : heightsIn ranges = List.range' start (stop - start + 1)
  length : ranges.length = (stop - start) / size + 1
  bounds : ∀ (k : Nat) (r : BlockRange), ranges[k]? = some r →
    r.start = start + k * size ∧ r.stop = min (start + (k + 1) * size - 1) stop

theorem toNat_sub_one {size : UInt64} (hsize : size ≠ 0) : (size - 1).toNat + 1 = size.toNat := by
  have hne : size.toNat ≠ 0 := fun h => hsize (UInt64.toNat_inj.mp h)
  rw [UInt64.toNat_sub_of_le _ _ (by
    rw [UInt64.le_iff_toNat_le, show (1 : UInt64).toNat = 1 from rfl]
    omega)]
  rw [show (1 : UInt64).toNat = 1 from rfl]
  omega

/-- **The first range and the rest of the cut.** -/
theorem segmented_segmentFrom {size : UInt64} (hsize : size ≠ 0) (start stop : UInt64)
    (hle : start ≤ stop) :
    Segmented size.toNat start.toNat stop.toNat (segmentFrom size start stop hle) := by
  have hpos : 0 < size.toNat := by
    rw [← toNat_sub_one hsize]
    exact Nat.succ_pos _
  induction hn : stop.toNat - start.toNat using Nat.strongRecOn generalizing start with
  | _ n ih =>
    subst hn
    have hle' : start.toNat ≤ stop.toNat := hle
    have hlast : (lastFrom size start stop).toNat =
        min (start.toNat + size.toNat - 1) stop.toNat := by
      rw [toNat_lastFrom, ← toNat_sub_one hsize]
      rfl
    rw [segmentFrom]
    split
    · next hend =>
      have hend' : (lastFrom size start stop).toNat = stop.toNat := congrArg UInt64.toNat hend
      refine ⟨?_, ?_, fun k r hk => ?_⟩
      · rw [heightsIn_singleton, BlockRange.heights]
        dsimp only
        rw [hend']
      · rw [List.length_singleton, Nat.div_eq_of_lt (by omega)]
      · rw [List.getElem?_singleton] at hk
        obtain ⟨rfl, ⟨⟩⟩ := Option.ite_none_right_eq_some.mp hk
        dsimp only
        omega
    · next hend =>
      -- The rest begins behind the first range and ends at the same height.
      obtain ⟨hnext, hbelow⟩ := toNat_add_one_of_ne hend
      have hfull : (lastFrom size start stop).toNat = start.toNat + size.toNat - 1 := by omega
      have hrest := ih (stop.toNat - (lastFrom size start stop + 1).toNat) (by omega)
        (lastFrom size start stop + 1) (by
          rw [UInt64.le_iff_toNat_le]
          omega) rfl
      generalize segmentFrom size (lastFrom size start stop + 1) stop _ = rest at hrest ⊢
      rw [hnext, hfull, show start.toNat + size.toNat - 1 + 1 = start.toNat + size.toNat by omega]
        at hrest
      refine ⟨?_, ?_, fun k r hk => ?_⟩
      · rw [heightsIn_cons, hrest.heights, BlockRange.heights]
        dsimp only
        rw [hfull, show start.toNat + size.toNat - 1 - start.toNat + 1 = size.toNat by omega,
          List.range'_append_1]
        congr 1
        omega
      · rw [List.length_cons, hrest.length,
          show stop.toNat - start.toNat = stop.toNat - (start.toNat + size.toNat) + size.toNat
            by omega,
          Nat.add_div_right _ hpos]
      · cases k with
        | zero =>
          cases hk
          dsimp only
          omega
        | succ k =>
          obtain ⟨hstart, hstop⟩ := hrest.bounds k r hk
          rw [hstart, hstop, Nat.succ_mul, Nat.succ_mul, Nat.succ_mul]
          omega

/-- **An interval is cut** if the size is not zero and its ends are in order. -/
theorem exists_segment {size start stop : UInt64} (hsize : size ≠ 0) (hle : start ≤ stop) :
    ∃ ranges, segment size start stop = .ok ranges ∧
      Segmented size.toNat start.toNat stop.toNat ranges :=
  ⟨_, by rw [segment, if_neg hsize, dif_pos hle], segmented_segmentFrom hsize start stop hle⟩

namespace Segmented

variable {size start stop : Nat}

theorem ascending (h : Segmented size start stop ranges) (hsize : 0 < size) :
    ranges.Pairwise fun r later => r.stop < later.start := by
  rw [List.pairwise_iff_getElem]
  intro i j hi hj hij
  obtain ⟨-, hstop⟩ := h.bounds i _ (List.getElem?_eq_getElem hi)
  obtain ⟨hstart, -⟩ := h.bounds j _ (List.getElem?_eq_getElem hj)
  have hle : (i + 1) * size ≤ j * size := Nat.mul_le_mul_right size hij
  have hpos : size ≤ (i + 1) * size := Nat.le_mul_of_pos_left size (Nat.succ_pos i)
  omega

theorem length_eq_ceilDiv (h : Segmented size start stop ranges) (hsize : 0 < size) :
    ranges.length = (stop - start + 1) ⌈/⌉ size := by
  rw [h.length, Nat.ceilDiv_eq_add_pred_div,
    show stop - start + 1 + size - 1 = stop - start + size by omega, Nat.add_div_right _ hsize]

theorem next (h : Segmented size start stop ranges) (hsize : 0 < size) {k : Nat}
    (hk : k + 1 < ranges.length) :
    ranges[k + 1].start = ranges[k].stop + 1 ∧ ranges[k].stop + 1 - ranges[k].start = size := by
  obtain ⟨hstart, hstop⟩ := h.bounds k _ (List.getElem?_eq_getElem (Nat.lt_of_succ_lt hk))
  obtain ⟨hnext, hend⟩ := h.bounds (k + 1) _ (List.getElem?_eq_getElem hk)
  have hle := ranges[k + 1].start_le_stop
  have hmul : (k + 1) * size = k * size + size := Nat.succ_mul k size
  omega

/-- **Skipping ranges skips those that begin below a height.** -/
theorem filter_eq_drop (h : Segmented size start stop ranges) (hsize : 0 < size) (k : Nat) :
    ranges.filter (fun r => start + k * size ≤ r.start) = ranges.drop k := by
  have hfirst : (ranges.take k).filter (fun r => start + k * size ≤ r.start) = [] := by
    refine List.filter_eq_nil_iff.mpr fun r hr => ?_
    obtain ⟨j, hj, rfl⟩ := List.mem_take_iff_getElem.mp hr
    have hlt : j < k := Nat.lt_of_lt_of_le hj (Nat.min_le_left _ _)
    have hmul : j * size < k * size := Nat.mul_lt_mul_of_pos_right hlt hsize
    rw [decide_eq_true_iff, (h.bounds j _ (List.getElem?_eq_getElem _)).1]
    omega
  have hlast : (ranges.drop k).filter (fun r => start + k * size ≤ r.start) = ranges.drop k := by
    refine List.filter_eq_self.mpr fun r hr => ?_
    obtain ⟨j, hj, rfl⟩ := List.mem_drop_iff_getElem.mp hr
    have hmul : k * size ≤ (k + j) * size := Nat.mul_le_mul_right size (Nat.le_add_right k j)
    rw [decide_eq_true_iff, (h.bounds (k + j) _ (List.getElem?_eq_getElem _)).1]
    omega
  conv_lhs => rw [← List.take_append_drop k ranges, List.filter_append, hfirst, hlast]
  rfl

theorem heightsIn_drop (h : Segmented size start stop ranges) (hle : start ≤ stop)
    (hsize : 0 < size) (k : Nat) :
    heightsIn (ranges.drop k) = List.range' (start + k * size) (stop + 1 - (start + k * size)) := by
  induction k with
  | zero =>
    rw [List.drop_zero, h.heights, Nat.zero_mul, ← Nat.sub_add_comm hle]
    rfl
  | succ k ih =>
    have hmul : (k + 1) * size = k * size + size := Nat.succ_mul k size
    by_cases hk : k < ranges.length
    · -- One range more is skipped.
      have hdrop := List.drop_eq_getElem_cons hk
      obtain ⟨hstart, hstop⟩ := h.bounds k _ (List.getElem?_eq_getElem hk)
      have hranges := (ranges[k]).start_le_stop
      rw [hdrop, heightsIn_cons, BlockRange.heights, hstart] at ih
      rw [hstart] at hranges
      set first := start + k * size with hfrom
      set len := (ranges[k]).stop - first + 1 with hlen
      have hsplit : List.range' first len ++ List.range' (first + len) (stop + 1 - first - len) =
          List.range' first (stop + 1 - first) := by
        rw [List.range'_append_1]
        congr 1
        omega
      rw [← hsplit] at ih
      rw [List.append_cancel_left ih]
      by_cases hfull : first + size ≤ stop + 1
      · congr 1 <;> omega
      · rw [show stop + 1 - first - len = 0 by omega,
          show stop + 1 - (start + (k + 1) * size) = 0 by omega]
        rfl
    · have hempty : ranges.drop k = [] := List.drop_eq_nil_of_le (Nat.le_of_not_lt hk)
      have hnone : ranges.drop (k + 1) = [] := List.drop_eq_nil_of_le (by omega)
      rw [hempty] at ih
      have hlength := congrArg List.length ih
      rw [heightsIn_nil, List.length_nil, List.length_range'] at hlength
      rw [hnone, show stop + 1 - (start + (k + 1) * size) = 0 by omega]
      rfl

end Segmented

/-! ### Intervals of words -/

/-- The exits of a cut: a size of zero is found first, then ends that are not in order. -/
theorem segment_cases (size start stop : UInt64) :
    (size = 0 ∧ segment size start stop = .error .zeroSize) ∨
    (size ≠ 0 ∧ stop < start ∧ segment size start stop = .error (.inverted start stop)) ∨
    (size ≠ 0 ∧ start ≤ stop ∧ ∃ ranges, segment size start stop = .ok ranges ∧
      Segmented size.toNat start.toNat stop.toNat ranges) := by
  by_cases hsize : size = 0
  · exact Or.inl ⟨hsize, by rw [segment, if_pos hsize]⟩
  by_cases hle : start ≤ stop
  · exact Or.inr (Or.inr ⟨hsize, hle, exists_segment hsize hle⟩)
  · refine Or.inr (Or.inl ⟨hsize, UInt64.not_le.mp hle, ?_⟩)
    rw [segment, if_neg hsize, dif_neg hle]

theorem segment_eq_zeroSize_iff {size start stop : UInt64} :
    segment size start stop = .error .zeroSize ↔ size = 0 := by
  rcases segment_cases size start stop with ⟨hsize, h⟩ | ⟨hsize, -, h⟩ | ⟨hsize, -, ranges, h, -⟩
  · exact iff_of_true h hsize
  · exact iff_of_false (fun he => by cases h.symm.trans he) hsize
  · exact iff_of_false (fun he => by cases h.symm.trans he) hsize

theorem segment_eq_inverted_iff {size start stop : UInt64} :
    segment size start stop = .error (.inverted start stop) ↔ size ≠ 0 ∧ stop < start := by
  rcases segment_cases size start stop with ⟨hsize, h⟩ | ⟨hsize, hlt, h⟩ | ⟨-, hle, ranges, h, -⟩
  · exact iff_of_false (fun he => by cases h.symm.trans he) fun hc => hc.1 hsize
  · exact iff_of_true h ⟨hsize, hlt⟩
  · exact iff_of_false (fun he => by cases h.symm.trans he) fun hc => UInt64.not_lt.mpr hle hc.2

theorem segmented_of_segment {size start stop : UInt64}
    (h : segment size start stop = .ok ranges) :
    size ≠ 0 ∧ start ≤ stop ∧ Segmented size.toNat start.toNat stop.toNat ranges := by
  rcases segment_cases size start stop with ⟨-, he⟩ | ⟨-, -, he⟩ | ⟨hsize, hle, cut, he, hcut⟩
  · cases h.symm.trans he
  · cases h.symm.trans he
  · cases h.symm.trans he
    exact ⟨hsize, hle, hcut⟩

theorem exists_segment_iff {size start stop : UInt64} :
    (∃ ranges, segment size start stop = .ok ranges) ↔ size ≠ 0 ∧ start ≤ stop := by
  constructor
  · rintro ⟨ranges, h⟩
    exact ⟨(segmented_of_segment h).1, (segmented_of_segment h).2.1⟩
  · rintro ⟨hsize, hle⟩
    obtain ⟨ranges, h, -⟩ := exists_segment hsize hle
    exact ⟨ranges, h⟩

/-- **The words from `start` to `stop` are partitioned** by ranges of `size` heights, also next to
the largest word. There is no partition exactly if the size is zero, which is found first, or the
start lies above the stop. Otherwise there are as many ranges as the heights divided by the size,
rounded up, and each lies where its place in the list says, in numbers that do not wrap: the ranges
are ascending, each begins right behind the one before it, all but the last have `size` heights,
and together they have every height of the interval once. -/
theorem segment_partitions (size start stop : UInt64) :
    (segment size start stop = .error .zeroSize ↔ size = 0) ∧
    (segment size start stop = .error (.inverted start stop) ↔ size ≠ 0 ∧ stop < start) ∧
    ((∃ ranges, segment size start stop = .ok ranges) ↔ size ≠ 0 ∧ start ≤ stop) ∧
    ∀ ranges, segment size start stop = .ok ranges →
      ranges.length = (stop.toNat - start.toNat + 1) ⌈/⌉ size.toNat ∧
      (∀ (k : Nat) (hk : k < ranges.length),
        ranges[k].start = start.toNat + k * size.toNat ∧
        ranges[k].stop = min (start.toNat + (k + 1) * size.toNat - 1) stop.toNat) ∧
      (∀ (k : Nat) (hk : k + 1 < ranges.length),
        ranges[k + 1].start = ranges[k].stop + 1 ∧
        ranges[k].stop + 1 - ranges[k].start = size.toNat) ∧
      (ranges.Pairwise fun r later => r.stop < later.start ∧ r.heights.Disjoint later.heights) ∧
      heightsIn ranges = List.range' start.toNat (stop.toNat - start.toNat + 1) := by
  refine ⟨segment_eq_zeroSize_iff, segment_eq_inverted_iff, exists_segment_iff, fun ranges h => ?_⟩
  obtain ⟨hsize, hle, hcut⟩ := segmented_of_segment h
  have hpos : 0 < size.toNat := by
    rw [← toNat_sub_one hsize]
    exact Nat.succ_pos _
  exact ⟨hcut.length_eq_ceilDiv hpos, fun k hk => hcut.bounds k _ (List.getElem?_eq_getElem hk),
    fun k hk => hcut.next hpos hk,
    (hcut.ascending hpos).imp fun hlt => ⟨hlt, BlockRange.disjoint_of_stop_lt hlt⟩, hcut.heights⟩

/-- The heights of the last fifteen words, cut into two ranges, the second one up to the largest
word. -/
theorem segment_topmost :
    ∃ ranges, segment 10 0xFFFF_FFFF_FFFF_FFF1 0xFFFF_FFFF_FFFF_FFFF = .ok ranges ∧
      ranges.length = 2 ∧
      heightsIn ranges = List.range' 0xFFFF_FFFF_FFFF_FFF1 15 := by
  obtain ⟨-, -, hexists, hparts⟩ :=
    segment_partitions 10 0xFFFF_FFFF_FFFF_FFF1 0xFFFF_FFFF_FFFF_FFFF
  obtain ⟨ranges, h⟩ := hexists.mpr ⟨by decide, by decide⟩
  obtain ⟨hlength, -, -, -, hheights⟩ := hparts ranges h
  exact ⟨ranges, h, hlength, hheights⟩

/-! ### Ranges that do not overlap -/

theorem pairwise_disjoint_iff :
    (ranges.Pairwise fun r r' => r.heights.Disjoint r'.heights) ↔ (heightsIn ranges).Nodup := by
  rw [heightsIn, List.nodup_flatMap]
  exact (and_iff_right fun r _ => r.nodup_heights).symm

end ChainMigration
