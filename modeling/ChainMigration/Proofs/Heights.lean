import ChainMigration.Block.Heights
import Mathlib.Data.List.Dedup

/-! # The heights that a walk misses

A walk passes over the heights of rows from the start of its range on. After any heights that it
accepted, the runs that it has noted are exactly the heights below the one that is due which were
not among them (`Seen`); after the last row they are the heights of the range which no row has
(`heightsIn_finish`).

`observeAll` is the walk over a list of heights. It accepts heights of the range that are in the
order which the table promises (`exists_observeAll_begin`). -/

namespace ChainMigration

/-! ### Heights of ranges -/

/-- The heights of ranges, one range after the other. -/
def heightsIn (ranges : List BlockRange) : List Nat := ranges.flatMap (·.heights)

@[simp]
theorem heightsIn_nil : heightsIn [] = [] := rfl

theorem heightsIn_cons (r : BlockRange) (ranges : List BlockRange) :
    heightsIn (r :: ranges) = r.heights ++ heightsIn ranges := rfl

@[simp]
theorem heightsIn_append (l m : List BlockRange) :
    heightsIn (l ++ m) = heightsIn l ++ heightsIn m :=
  List.flatMap_append

theorem heightsIn_singleton (r : BlockRange) : heightsIn [r] = r.heights := by
  rw [heightsIn, List.flatMap_singleton]

theorem mem_heightsIn {ranges : List BlockRange} {h : Nat} :
    h ∈ heightsIn ranges ↔ ∃ r ∈ ranges, h ∈ r.heights := List.mem_flatMap

namespace BlockRange

theorem mem_heights {r : BlockRange} {h : Nat} : h ∈ r.heights ↔ r.start ≤ h ∧ h ≤ r.stop := by
  have := r.start_le_stop
  rw [heights, List.mem_range'_1]
  omega

theorem start_mem_heights (r : BlockRange) : r.start ∈ r.heights :=
  mem_heights.mpr ⟨Nat.le_refl _, r.start_le_stop⟩

theorem stop_mem_heights (r : BlockRange) : r.stop ∈ r.heights :=
  mem_heights.mpr ⟨r.start_le_stop, Nat.le_refl _⟩

theorem nodup_heights (r : BlockRange) : r.heights.Nodup := List.nodup_range'

theorem disjoint_of_stop_lt {r r' : BlockRange} (h : r.stop < r'.start) :
    r.heights.Disjoint r'.heights := by
  intro height hr hr'
  rw [mem_heights] at hr hr'
  omega

theorem contains_iff {r : BlockRange} {h : Nat} : r.contains h = true ↔ h ∈ r.heights := by
  rw [mem_heights, contains, Bool.and_eq_true, decide_eq_true_iff, decide_eq_true_iff]

end BlockRange

/-- Heights seen among others, each once, and the ones not seen are all of them. -/
theorem perm_dedup_append_filter {seen heights : List Nat} (hnodup : heights.Nodup)
    (hsub : ∀ h ∈ seen, h ∈ heights) :
    (seen.dedup ++ heights.filter (· ∉ seen)).Perm heights := by
  have hdisj : seen.dedup.Disjoint (heights.filter (· ∉ seen)) := by
    intro h hseen hrest
    rw [List.mem_dedup] at hseen
    exact (decide_eq_true_iff.mp (List.mem_filter.mp hrest).2) hseen
  rw [List.perm_ext_iff_of_nodup
    (List.nodup_append'.mpr ⟨seen.nodup_dedup, hnodup.filter _, hdisj⟩) hnodup]
  intro h
  rw [List.mem_append, List.mem_dedup, List.mem_filter, decide_eq_true_iff]
  constructor
  · rintro (h' | h')
    · exact hsub h h'
    · exact h'.1
  · intro h'
    by_cases hs : h ∈ seen
    · exact Or.inl hs
    · exact Or.inr ⟨h', hs⟩

/-! ### The order of heights -/

/-- The order in which a table with this promise has the heights of its rows. -/
def Continuity.Ordered : Continuity → List Nat → Prop
  | none, _ => True
  | strict, heights => heights.Pairwise (· < ·)
  | grouped, heights => heights.Pairwise (· ≤ ·)

instance : (c : Continuity) → DecidablePred c.Ordered
  | .none => fun _ => inferInstanceAs (Decidable True)
  | .strict => fun heights => inferInstanceAs (Decidable (heights.Pairwise (· < ·)))
  | .grouped => fun heights => inferInstanceAs (Decidable (heights.Pairwise (· ≤ ·)))

namespace Continuity.Ordered

theorem sublist {c : Continuity} {l m : List Nat} (h : c.Ordered m) (hl : l.Sublist m) :
    c.Ordered l := by
  cases c with
  | none => trivial
  | strict => exact List.Pairwise.sublist hl h
  | grouped => exact List.Pairwise.sublist hl h

theorem tail {c : Continuity} {height : Nat} {heights : List Nat}
    (h : c.Ordered (height :: heights)) :
    c.Ordered heights := h.sublist (List.sublist_cons_self _ _)

theorem head_le {c : Continuity} {height k : Nat} {heights : List Nat}
    (h : c.Ordered (height :: heights)) (hc : c ≠ .none) (hk : k ∈ heights) :
    height ≤ k ∧ (height = k → c = .grouped) := by
  cases c with
  | none => exact absurd rfl hc
  | strict =>
    have := List.rel_of_pairwise_cons h hk
    exact ⟨by omega, fun he => by omega⟩
  | grouped => exact ⟨List.rel_of_pairwise_cons h hk, fun _ => rfl⟩

/-- A height goes behind others if it lies above them; a grouped one may also repeat the highest. -/
theorem concat {c : Continuity} {height : Nat} {heights : List Nat} (h : c.Ordered heights)
    (hle : ∀ k ∈ heights, k < height ∨ (k ≤ height ∧ c = .grouped)) :
    c.Ordered (heights ++ [height]) := by
  cases c with
  | none => trivial
  | strict =>
    refine List.pairwise_append.mpr ⟨h, List.pairwise_singleton _ _, fun k hk l hl => ?_⟩
    rw [List.mem_singleton.mp hl]
    exact (hle k hk).resolve_right fun hgrouped => by cases hgrouped.2
  | grouped =>
    refine List.pairwise_append.mpr ⟨h, List.pairwise_singleton _ _, fun k hk l hl => ?_⟩
    rw [List.mem_singleton.mp hl]
    exact (hle k hk).elim Nat.le_of_lt And.left

theorem le_of_concat {c : Continuity} {height k : Nat} {heights : List Nat}
    (h : c.Ordered (heights ++ [height])) (hc : c ≠ .none) (hk : k ∈ heights) :
    k ≤ height ∧ (k = height → c = .grouped) :=
  (h.sublist ((List.singleton_sublist.mpr hk).append (List.Sublist.refl [height]))).head_le hc
    (List.mem_singleton_self height)

end Continuity.Ordered

namespace HeightWalk

/-! ### One height -/

/-- **What a step answers to a height, and the walk after it.** A walk that promises nothing takes
every height. Otherwise the height lies in the range and repeats the last one, where that is
allowed, or it does not lie below the one that is due, and everything in between is noted. -/
inductive Stepped (w : HeightWalk) (height : Nat) : Except HeightError Unit × HeightWalk → Prop
  | free (hc : w.continuity = .none) : Stepped w height (.ok (), w)
  | outside (hc : w.continuity ≠ .none) (hout : height ∉ w.range.heights) :
    Stepped w height (.error (.outside height w.range), w)
  | repeated (hin : height ∈ w.range.heights) (hc : w.continuity = .grouped)
    (hlast : w.last = some height) : Stepped w height (.ok (), w)
  | descending (hc : w.continuity ≠ .none) (hin : height ∈ w.range.heights)
    (hlast : ¬ (w.continuity = .grouped ∧ w.last = some height)) (hlt : height < w.expected) :
    Stepped w height (.error (.descending height w.expected), w)
  | onwards (skipped : List BlockRange) (hc : w.continuity ≠ .none)
    (hin : height ∈ w.range.heights) (hle : w.expected ≤ height)
    (hskipped : heightsIn skipped = List.range' w.expected (height - w.expected))
    (hends : ∀ run ∈ skipped, run.start = w.expected ∧ run.stop + 1 = height) :
    Stepped w height (.ok (), { w with
      expected := height + 1, last := some height, missing := w.missing ++ skipped })

theorem run_get_bind {ε σ α : Type} (f : σ → ExceptT ε (StateM σ) α) (s : σ) :
    (get >>= f).run.run s = (f s).run.run s := rfl

theorem stepped_step (w : HeightWalk) (height : Nat) :
    Stepped w height ((step height).run.run w) := by
  rw [step, run_get_bind]
  by_cases hc : w.continuity = .none
  · rw [if_pos hc]
    exact .free hc
  rw [if_neg hc]
  split
  · next hout =>
    exact .outside hc fun hin => by
      rw [BlockRange.contains_iff.mpr hin] at hout
      cases hout
  · next hin =>
    rw [Bool.not_eq_false, BlockRange.contains_iff] at hin
    by_cases hlast : w.continuity = .grouped ∧ w.last = some height
    · rw [if_pos hlast]
      exact .repeated hin hlast.1 hlast.2
    rw [if_neg hlast]
    by_cases hlt : height < w.expected
    · rw [if_pos hlt]
      exact .descending hc hin hlast hlt
    rw [if_neg hlt]
    split
    · next hskip =>
      refine .onwards _ hc hin (by omega) ?_ (List.forall_mem_singleton.mpr ⟨rfl, ?_⟩)
      · rw [heightsIn_singleton, BlockRange.heights]
        congr 1
        dsimp only
        omega
      · dsimp only
        omega
    · next hskip =>
      have hdue : height - w.expected = 0 := by omega
      have h : Stepped w height (.ok (), { w with
          expected := height + 1, last := some height, missing := w.missing ++ [] }) :=
        .onwards [] hc hin (by omega) (by rw [hdue]; rfl) (by simp)
      rw [List.append_nil] at h
      exact h

theorem observe_eq_ok {w next : HeightWalk} {height : Nat} :
    w.observe height = .ok next ↔ (step height).run.run w = (.ok (), next) := by
  unfold observe
  split
  · next h => rw [h, Except.ok.injEq, Prod.mk.injEq, and_iff_right rfl]
  · next h =>
    rw [h]
    exact iff_of_false (fun hok => by cases hok) (fun hok => by cases hok)

theorem stepped_of_observe {w next : HeightWalk} {height : Nat} (h : w.observe height = .ok next) :
    Stepped w height (.ok (), next) := by
  have hstep := stepped_step w height
  rwa [observe_eq_ok.mp h] at hstep

theorem exists_stepped_of_observe_eq_error {w : HeightWalk} {height : Nat} {reason : HeightError}
    (h : w.observe height = .error reason) : ∃ next, Stepped w height (.error reason, next) := by
  have hstep := stepped_step w height
  unfold observe at h
  split at h
  · cases h
  · next hrun =>
    cases h
    exact ⟨_, hrun ▸ hstep⟩

/-- **What an accepted height does**: it repeats the last one where that is allowed, or it lies at
or above the height that is due and everything in between is noted as missing. -/
theorem of_observe {w next : HeightWalk} {height : Nat} (hc : w.continuity ≠ .none)
    (h : w.observe height = .ok next) :
    height ∈ w.range.heights ∧
      ((w.last = some height ∧ next = w) ∨
        (w.expected ≤ height ∧ next.range = w.range ∧ next.continuity = w.continuity ∧
          next.expected = height + 1 ∧ next.last = some height ∧
          heightsIn next.missing =
            heightsIn w.missing ++ List.range' w.expected (height - w.expected))) := by
  cases stepped_of_observe h with
  | free hnone => exact absurd hnone hc
  | repeated hin _ hlast => exact ⟨hin, Or.inl ⟨hlast, rfl⟩⟩
  | onwards skipped _ hin hle hskipped _ =>
    exact ⟨hin, Or.inr ⟨hle, rfl, rfl, rfl, rfl, by rw [heightsIn_append, hskipped]⟩⟩

/-- **The heights that are accepted** lie in the range, and repeat the last one of a grouped walk or
do not lie below the height that is due. -/
theorem exists_observe_iff {w : HeightWalk} {height : Nat} (hc : w.continuity ≠ .none) :
    (∃ next, w.observe height = .ok next) ↔ height ∈ w.range.heights ∧
      ((w.continuity = .grouped ∧ w.last = some height) ∨ w.expected ≤ height) := by
  simp only [observe_eq_ok]
  have hstep := stepped_step w height
  generalize (step height).run.run w = answer at hstep
  cases hstep with
  | free hnone => exact absurd hnone hc
  | outside _ hout => exact iff_of_false (fun ⟨_, hok⟩ => by cases hok) fun h => hout h.1
  | repeated hin hgrouped hlast => exact iff_of_true ⟨w, rfl⟩ ⟨hin, Or.inl ⟨hgrouped, hlast⟩⟩
  | descending _ _ hlast hlt =>
    exact iff_of_false (fun ⟨_, hok⟩ => by cases hok) fun h =>
      h.2.elim hlast fun hle => by omega
  | onwards _ _ hin hle => exact iff_of_true ⟨_, rfl⟩ ⟨hin, Or.inr hle⟩

theorem observe_of_none {w : HeightWalk} (hc : w.continuity = .none) (height : Nat) :
    w.observe height = .ok w := by
  rw [observe_eq_ok, step, run_get_bind, if_pos hc]
  rfl

theorem continuity_of_observe {w next : HeightWalk} {height : Nat}
    (h : w.observe height = .ok next) : next.continuity = w.continuity := by
  by_cases hc : w.continuity = .none
  · rw [observe_of_none hc] at h
    cases h
    rfl
  · rcases (of_observe hc h).2 with ⟨-, rfl⟩ | ⟨-, -, h, -⟩
    · rfl
    · exact h

/-! ### What a walk has seen -/

/-- **The walk has accepted these heights**: they lie below the height that is due, and the runs
noted so far are the other heights below it. -/
structure Seen (w : HeightWalk) (heights : List Nat) : Prop where
  start_le : w.range.start ≤ w.expected
  expected_le : w.expected ≤ w.range.stop + 1
  below : ∀ h ∈ heights, w.range.start ≤ h ∧ h < w.expected
  last_mem : ∀ h, w.last = some h → h ∈ heights
  missing_eq : heightsIn w.missing =
    (List.range' w.range.start (w.expected - w.range.start)).filter (· ∉ heights)

theorem seen_begin (range : BlockRange) (c : Continuity) : (begin range c).Seen [] where
  start_le := Nat.le_refl _
  expected_le := by
    have := range.start_le_stop
    simp only [begin]
    omega
  below := by simp
  last_mem := by simp [begin]
  missing_eq := by simp [begin]

/-- Heights from the one that is due up to an accepted one are none of the heights seen before. -/
theorem Seen.filter_skipped {w : HeightWalk} {heights : List Nat} (hs : w.Seen heights)
    {height : Nat}
    (hle : w.expected ≤ height) :
    (List.range' w.expected (height - w.expected)).filter (· ∉ heights ++ [height]) =
      List.range' w.expected (height - w.expected) := by
  rw [List.filter_eq_self]
  intro k hk
  rw [List.mem_range'_1] at hk
  rw [decide_eq_true_iff, List.mem_append, List.mem_singleton]
  rintro (hk' | rfl)
  · have := (hs.below k hk').2
    omega
  · omega

theorem Seen.observe {w next : HeightWalk} {heights : List Nat} {height : Nat} (hs : w.Seen heights)
    (hc : w.continuity ≠ .none) (h : w.observe height = .ok next) :
    next.Seen (heights ++ [height]) := by
  obtain ⟨hin, h⟩ := of_observe hc h
  have hstart := hs.start_le
  rw [BlockRange.mem_heights] at hin
  rcases h with ⟨hlast, rfl⟩ | ⟨hle, hr, -, he, hl, hm⟩
  · -- A repeated height was seen before, so nothing changes.
    have hmem := hs.last_mem height hlast
    have hiff : ∀ k, k ∈ heights ++ [height] ↔ k ∈ heights := by
      intro k
      rw [List.mem_append, List.mem_singleton]
      constructor
      · rintro (hk | rfl)
        · exact hk
        · exact hmem
      · exact Or.inl
    refine ⟨hstart, hs.expected_le, ?_, ?_, ?_⟩
    · intro k hk
      exact hs.below k ((hiff k).mp hk)
    · intro k hk
      exact (hiff k).mpr (hs.last_mem k hk)
    · simp only [hiff]
      exact hs.missing_eq
  · -- The heights below the next one due are those below the old one, those passed over and the
    -- new one.
    have hsplit : List.range' w.range.start (height + 1 - w.range.start) =
        List.range' w.range.start (w.expected - w.range.start) ++
          List.range' w.expected (height - w.expected) ++ [height] := by
      rw [show height + 1 - w.range.start = height - w.range.start + 1 by omega,
        List.range'_1_concat, show w.range.start + (height - w.range.start) = height by omega,
        show height - w.range.start = w.expected - w.range.start + (height - w.expected) by omega,
        ← List.range'_append_1,
        show w.range.start + (w.expected - w.range.start) = w.expected by omega]
    refine ⟨by rw [hr, he]; omega, by rw [hr, he]; omega, ?_, ?_, ?_⟩
    · intro k hk
      rw [hr, he]
      rcases List.mem_append.mp hk with hk | hk
      · have := hs.below k hk
        omega
      · rw [List.mem_singleton] at hk
        omega
    · intro k hk
      rw [hl, Option.some.injEq] at hk
      rw [← hk]
      exact List.mem_append_right _ (List.mem_singleton_self _)
    · have hold : (List.range' w.range.start (w.expected - w.range.start)).filter
          (· ∉ heights ++ [height]) = heightsIn w.missing := by
        rw [hs.missing_eq]
        refine List.filter_congr fun k hk => ?_
        rw [List.mem_range'_1] at hk
        rw [decide_eq_decide, List.mem_append, List.mem_singleton, not_or, and_iff_left]
        omega
      rw [hm, hr, he, hsplit, List.filter_append, List.filter_append, hold,
        hs.filter_skipped hle, List.filter_singleton]
      simp

/-- **The runs of a finished walk** are the heights of the range that were not seen. -/
theorem heightsIn_finish {w : HeightWalk} {heights : List Nat} (hs : w.Seen heights)
    (hc : w.continuity ≠ .none) :
    heightsIn w.finish = w.range.heights.filter (· ∉ heights) := by
  have hstart := hs.start_le
  have hstop := hs.expected_le
  have hsplit : w.range.heights = List.range' w.range.start (w.expected - w.range.start) ++
      List.range' w.expected (w.range.stop + 1 - w.expected) := by
    have := w.range.start_le_stop
    rw [BlockRange.heights,
      show w.range.stop - w.range.start + 1 =
        w.expected - w.range.start + (w.range.stop + 1 - w.expected) by omega,
      ← List.range'_append_1,
      show w.range.start + (w.expected - w.range.start) = w.expected by omega]
  have htail : (List.range' w.expected (w.range.stop + 1 - w.expected)).filter (· ∉ heights) =
      List.range' w.expected (w.range.stop + 1 - w.expected) := by
    rw [List.filter_eq_self]
    intro k hk
    rw [List.mem_range'_1] at hk
    rw [decide_eq_true_iff]
    intro hk'
    have := (hs.below k hk').2
    omega
  rw [hsplit, List.filter_append, ← hs.missing_eq, htail]
  unfold finish
  rw [if_neg hc]
  split
  · next hle =>
    rw [heightsIn_append, heightsIn_singleton, BlockRange.heights]
    congr 2
    simp only
    omega
  · next hlt =>
    rw [show w.range.stop + 1 - w.expected = 0 by omega, List.range'_zero, List.append_nil]

theorem range_of_observe {w next : HeightWalk} {height : Nat} (h : w.observe height = .ok next) :
    next.range = w.range := by
  by_cases hc : w.continuity = .none
  · rw [observe_of_none hc] at h
    cases h
    rfl
  · rcases (of_observe hc h).2 with ⟨-, rfl⟩ | ⟨-, h, -⟩
    · rfl
    · exact h

/-! ### A list of heights -/

/-- Observes heights in order, as far as the first that is not accepted. -/
def observeAll (w : HeightWalk) : List Nat → Except HeightError HeightWalk
  | [] => .ok w
  | height :: heights => do (← w.observe height).observeAll heights

theorem observeAll_cons_eq_ok {w next : HeightWalk} {height : Nat} {heights : List Nat} :
    w.observeAll (height :: heights) = .ok next ↔
      ∃ w', w.observe height = .ok w' ∧ w'.observeAll heights = .ok next := by
  rw [observeAll]
  cases w.observe height with
  | error reason => simp [bind, Except.bind]
  | ok w' => simp [bind, Except.bind]

theorem Seen.observeAll {heights : List Nat} : ∀ {w next : HeightWalk} {before : List Nat},
    w.Seen before → w.continuity ≠ .none → w.observeAll heights = .ok next →
      next.Seen (before ++ heights) ∧ next.range = w.range ∧ next.continuity = w.continuity := by
  induction heights with
  | nil =>
    intro w next before hs _ h
    cases h
    rw [List.append_nil]
    exact ⟨hs, rfl, rfl⟩
  | cons height heights ih =>
    intro w next before hs hc h
    obtain ⟨w', ho, h⟩ := observeAll_cons_eq_ok.mp h
    have hc' := continuity_of_observe ho
    obtain ⟨h1, h2, h3⟩ := ih (hs.observe hc ho) (hc' ▸ hc) h
    rw [List.append_assoc, List.singleton_append] at h1
    exact ⟨h1, h2.trans (range_of_observe ho), h3.trans hc'⟩

/-- **After a list of heights** the runs of the walk are the heights of the range that are not in
the list. -/
theorem heightsIn_finish_observeAll {range : BlockRange} {c : Continuity} {heights : List Nat}
    {w : HeightWalk} (hc : c ≠ .none) (h : (begin range c).observeAll heights = .ok w) :
    heightsIn w.finish = range.heights.filter (· ∉ heights) := by
  obtain ⟨hs, hr, hc'⟩ := (seen_begin range c).observeAll hc h
  have := heightsIn_finish hs (by rw [hc']; exact hc)
  rw [hr] at this
  exact this

theorem mem_heights_of_observeAll {range : BlockRange} {c : Continuity} {heights : List Nat}
    {w : HeightWalk} (hc : c ≠ .none) (h : (begin range c).observeAll heights = .ok w) :
    ∀ k ∈ heights, k ∈ range.heights := by
  obtain ⟨hs, hr, -⟩ := (seen_begin range c).observeAll hc h
  intro k hk
  have h1 := hs.below k hk
  have h2 := hs.expected_le
  rw [hr] at h1 h2
  simp only [begin] at h1 h2
  rw [BlockRange.mem_heights]
  omega

/-- **Heights in order are accepted**, if the walk may go on with each of them. -/
theorem exists_observeAll {heights : List Nat} : ∀ {w : HeightWalk},
    w.continuity.Ordered heights → w.continuity ≠ .none → (∀ k ∈ heights, k ∈ w.range.heights) →
      (∀ k ∈ heights, w.expected ≤ k ∨ (w.continuity = .grouped ∧ w.last = some k)) →
        ∃ next, w.observeAll heights = .ok next := by
  induction heights with
  | nil => exact fun {w} _ _ _ _ => ⟨w, rfl⟩
  | cons height heights ih =>
    intro w hord hc hin hnext
    obtain ⟨w', ho⟩ := (exists_observe_iff hc).mpr
      ⟨hin height List.mem_cons_self, (hnext height List.mem_cons_self).symm⟩
    have hc' := continuity_of_observe ho
    have hrest : ∀ k ∈ heights, k ∈ w'.range.heights := by
      intro k hk
      rw [range_of_observe ho]
      exact hin k (List.mem_cons_of_mem _ hk)
    have hgo : ∀ k ∈ heights,
        w'.expected ≤ k ∨ (w'.continuity = .grouped ∧ w'.last = some k) := by
      intro k hk
      rcases (of_observe hc ho).2 with ⟨-, rfl⟩ | ⟨-, -, -, he, hl, -⟩
      · exact hnext k (List.mem_cons_of_mem _ hk)
      · have hle := hord.head_le hc hk
        rcases Nat.lt_or_eq_of_le hle.1 with hlt | rfl
        · exact Or.inl (by omega)
        · exact Or.inr ⟨hc'.trans (hle.2 rfl), hl⟩
    obtain ⟨next, h⟩ := ih (hc' ▸ hord.tail) (hc' ▸ hc) hrest hgo
    exact ⟨next, observeAll_cons_eq_ok.mpr ⟨w', ho, h⟩⟩

/-- Heights of the range in the order that the continuity asks for are accepted from the start. -/
theorem exists_observeAll_begin {range : BlockRange} {c : Continuity} {heights : List Nat}
    (hc : c ≠ .none) (hord : c.Ordered heights) (hin : ∀ k ∈ heights, k ∈ range.heights) :
    ∃ w, (begin range c).observeAll heights = .ok w :=
  exists_observeAll (w := begin range c) hord hc hin fun k hk =>
    Or.inl (BlockRange.mem_heights.mp (hin k hk)).1

end HeightWalk

end ChainMigration
