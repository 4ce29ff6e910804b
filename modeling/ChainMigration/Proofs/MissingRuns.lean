import ChainMigration.Proofs.Heights

/-! # The maximal runs of missing heights

A walk that goes on after heights which it does not accept finds exactly the maximal runs of heights
of its range that it has not accepted (`missingRuns_finish_walk`): ascending, with an accepted
height between any two of them, so that accepted heights and runs divide the range.

The heights of the runs are known from `heightsIn_finish`. That each run is maximal is a matter of
its ends: a run begins where the range begins or behind an accepted height, and it ends where the
range ends or before one (`Tracks`). Two maximal runs with a height in common are the same
(`IsMissingRun.eq_of_mem`), so that a list with the right heights whose members are maximal has all
the maximal runs (`missingRuns_of_heightsIn`). -/

namespace ChainMigration

variable {range : BlockRange} {taken : List Nat} {runs : List BlockRange}

/-! ### Maximal runs -/

/-- The run begins where the range begins, or right behind a taken height. -/
def BeginsRun (range : BlockRange) (taken : List Nat) (run : BlockRange) : Prop :=
  run.start = range.start ∨ ∃ height ∈ taken, height + 1 = run.start

/-- The run ends where the range ends, or right before a taken height. -/
def EndsRun (range : BlockRange) (taken : List Nat) (run : BlockRange) : Prop :=
  run.stop = range.stop ∨ run.stop + 1 ∈ taken

/-- **A maximal run**: consecutive heights of a range that are not taken, which cannot go on in
either direction. -/
structure IsMissingRun (range : BlockRange) (taken : List Nat) (run : BlockRange) : Prop where
  start_le : range.start ≤ run.start
  start_le_stop : run.start ≤ run.stop
  stop_le : run.stop ≤ range.stop
  not_taken : ∀ height ∈ run.heights, height ∉ taken
  begins : BeginsRun range taken run
  ends : EndsRun range taken run

/-- **All the maximal runs**, ascending and with a taken height between any two. -/
structure MissingRuns (range : BlockRange) (taken : List Nat) (runs : List BlockRange) : Prop where
  mem_iff : ∀ run, run ∈ runs ↔ IsMissingRun range taken run
  separated : runs.Pairwise fun run later =>
    ∃ height ∈ taken, run.stop < height ∧ height < later.start

namespace IsMissingRun

variable {run other : BlockRange} {height : Nat}

theorem start_le_of_mem (h : IsMissingRun range taken run) (ho : IsMissingRun range taken other)
    (hmem : height ∈ run.heights) (hmem' : height ∈ other.heights) : run.start ≤ other.start := by
  rw [BlockRange.mem_heights] at hmem hmem'
  by_contra hlt
  rcases h.begins with hstart | ⟨k, hk, hstart⟩
  · have := ho.start_le
    omega
  · -- The taken height before the run would be a height of the other one.
    exact ho.not_taken k (BlockRange.mem_heights.mpr (by omega)) hk

theorem stop_le_of_mem (h : IsMissingRun range taken run) (ho : IsMissingRun range taken other)
    (hmem : height ∈ run.heights) (hmem' : height ∈ other.heights) : other.stop ≤ run.stop := by
  rw [BlockRange.mem_heights] at hmem hmem'
  by_contra hlt
  rcases h.ends with hstop | hstop
  · have := ho.stop_le
    omega
  · exact ho.not_taken _ (BlockRange.mem_heights.mpr (by omega)) hstop

/-- **Maximal runs with a height in common are the same.** -/
theorem eq_of_mem (h : IsMissingRun range taken run) (ho : IsMissingRun range taken other)
    (hmem : height ∈ run.heights) (hmem' : height ∈ other.heights) : run = other := by
  have hstart := Nat.le_antisymm (h.start_le_of_mem ho hmem hmem') (ho.start_le_of_mem h hmem' hmem)
  have hstop := Nat.le_antisymm (ho.stop_le_of_mem h hmem' hmem) (h.stop_le_of_mem ho hmem hmem')
  cases run
  cases other
  cases hstart
  cases hstop
  rfl

end IsMissingRun

theorem missingRuns_of_heightsIn
    (hheights : heightsIn runs = range.heights.filter (· ∉ taken))
    (hruns : ∀ run ∈ runs, BeginsRun range taken run ∧ EndsRun range taken run) :
    MissingRuns range taken runs := by
  have hmem (height : Nat) :
      (∃ run ∈ runs, height ∈ run.heights) ↔ height ∈ range.heights ∧ height ∉ taken := by
    rw [← mem_heightsIn, hheights, List.mem_filter, decide_eq_true_iff]
  have hmaximal (run : BlockRange) (hrun : run ∈ runs) : IsMissingRun range taken run := by
    have hstart := (hmem run.start).mp ⟨run, hrun, run.start_mem_heights⟩
    have hstop := (hmem run.stop).mp ⟨run, hrun, run.stop_mem_heights⟩
    exact {
      start_le := (BlockRange.mem_heights.mp hstart.1).1
      start_le_stop := run.start_le_stop
      stop_le := (BlockRange.mem_heights.mp hstop.1).2
      not_taken := fun height hheight => ((hmem height).mp ⟨run, hrun, hheight⟩).2
      begins := (hruns run hrun).1
      ends := (hruns run hrun).2 }
  refine ⟨fun run => ⟨hmaximal run, fun hrun => ?_⟩, ?_⟩
  · -- The first height of a maximal run is a height of one of the runs.
    have hfirst := run.start_mem_heights
    have hin : run.start ∈ range.heights :=
      BlockRange.mem_heights.mpr ⟨hrun.start_le, Nat.le_trans hrun.start_le_stop hrun.stop_le⟩
    obtain ⟨other, hother, hfirst'⟩ :=
      (hmem run.start).mpr ⟨hin, hrun.not_taken run.start hfirst⟩
    rw [hrun.eq_of_mem (hmaximal other hother) hfirst hfirst']
    exact hother
  · have hsorted : (heightsIn runs).Pairwise (· < ·) := by
      rw [hheights]
      exact (List.pairwise_lt_range' 1 (Nat.one_pos)).filter _
    refine (List.pairwise_flatMap.mp hsorted).2.imp_of_mem fun {run later} hrun hlater hlt => ?_
    have hlt := hlt run.stop run.stop_mem_heights later.start later.start_mem_heights
    have hlater' := hmaximal later hlater
    -- The run ends before the range does, so a taken height follows, where the later one is not.
    rcases (hmaximal run hrun).ends with hstop | hstop
    · have := hlater'.start_le_stop
      have := hlater'.stop_le
      omega
    · refine ⟨run.stop + 1, hstop, by omega, Nat.lt_of_le_of_ne hlt fun heq => ?_⟩
      exact hlater'.not_taken later.start later.start_mem_heights (heq ▸ hstop)

/-- **Why a height cannot follow others** on the way through a range: it lies outside the range, or
behind them it breaks the order that is promised. -/
inductive Continuity.Broken (c : Continuity) (range : BlockRange) (taken : List Nat)
    (height : Nat) : HeightError → Prop
  | outside (hout : height ∉ range.heights) : Broken c range taken height (.outside height range)
  | descending {last : Nat} (hin : height ∈ range.heights) (hord : ¬ c.Ordered (taken ++ [height]))
    (hlast : taken.getLast? = some last) :
    Broken c range taken height (.descending height (last + 1))

theorem Continuity.Broken.unique {c : Continuity} {height : Nat} {reason reason' : HeightError}
    (h : c.Broken range taken height reason) (h' : c.Broken range taken height reason') :
    reason = reason' := by
  cases h with
  | outside hout =>
    cases h' with
    | outside _ => rfl
    | descending hin _ _ => exact absurd hin hout
  | descending hin _ hlast =>
    cases h' with
    | outside hout => exact absurd hin hout
    | descending _ _ hlast' => rw [Option.some.inj (hlast.symm.trans hlast')]

namespace HeightWalk

/-! ### The ends of runs -/

/-- **The walk has accepted these heights**, in order, up to the one before the height that is due,
and every run noted so far begins and ends as maximal runs do. -/
structure Tracks (w : HeightWalk) (taken : List Nat) : Prop extends w.Seen taken where
  ordered : w.continuity.Ordered taken
  last_eq : w.last = taken.getLast?
  due : w.expected = (taken.getLast?.map (· + 1)).getD w.range.start
  runs : ∀ run ∈ w.missing, BeginsRun w.range taken run ∧ run.stop + 1 ∈ taken

theorem tracks_begin (range : BlockRange) (c : Continuity) : (begin range c).Tracks [] where
  toSeen := seen_begin range c
  ordered := by cases c <;> simp [begin, Continuity.Ordered]
  last_eq := rfl
  due := rfl
  runs := by simp [begin]

theorem Tracks.due_eq {w : HeightWalk} {last : Nat} (hw : w.Tracks taken)
    (hlast : taken.getLast? = some last) : w.expected = last + 1 := by
  rw [hw.due, hlast, Option.map_some, Option.getD_some]

theorem Tracks.begins_of_start_eq {w : HeightWalk} {run : BlockRange} (hw : w.Tracks taken)
    (h : run.start = w.expected) : BeginsRun w.range taken run := by
  rw [BeginsRun, h]
  cases hlast : taken.getLast? with
  | none => exact Or.inl (by rw [hw.due, hlast, Option.map_none, Option.getD_none])
  | some last => exact Or.inr ⟨last, List.mem_of_getLast? hlast, (hw.due_eq hlast).symm⟩

/-- An accepted height notes runs behind those noted before, from the height that was due to the one
before it. -/
theorem exists_skipped_of_observe {w next : HeightWalk} {height : Nat}
    (h : w.observe height = .ok next) :
    ∃ skipped, next.missing = w.missing ++ skipped ∧
      ∀ run ∈ skipped, run.start = w.expected ∧ run.stop + 1 = height := by
  cases stepped_of_observe h with
  | free _ => exact ⟨[], (List.append_nil _).symm, by simp⟩
  | repeated _ _ _ => exact ⟨[], (List.append_nil _).symm, by simp⟩
  | onwards skipped _ _ _ _ hends => exact ⟨skipped, rfl, hends⟩

/-- **The heights that can follow**: those of the range above all accepted ones, and the last one
again where that is allowed. -/
theorem Tracks.exists_observe_iff {w : HeightWalk} (hw : w.Tracks taken)
    (hc : w.continuity ≠ .none) (height : Nat) :
    (∃ next, w.observe height = .ok next) ↔ height ∈ w.range.heights ∧
      ((∀ k ∈ taken, k < height) ∨ (w.continuity = .grouped ∧ taken.getLast? = some height)) := by
  rw [HeightWalk.exists_observe_iff hc, ← hw.last_eq, or_comm]
  refine and_congr_right fun hin => or_congr_left ?_
  constructor
  · intro hle k hk
    exact Nat.lt_of_lt_of_le (hw.below k hk).2 hle
  · intro habove
    cases hlast : taken.getLast? with
    | none =>
      rw [hw.due, hlast]
      exact (BlockRange.mem_heights.mp hin).1
    | some last =>
      rw [hw.due_eq hlast]
      exact habove last (List.mem_of_getLast? hlast)

theorem Tracks.exists_observe_iff_ordered {w : HeightWalk} (hw : w.Tracks taken)
    (hc : w.continuity ≠ .none) (height : Nat) :
    (∃ next, w.observe height = .ok next) ↔
      height ∈ w.range.heights ∧ w.continuity.Ordered (taken ++ [height]) := by
  rw [hw.exists_observe_iff hc]
  refine and_congr_right fun _ => ⟨fun h => hw.ordered.concat fun k hk => ?_, fun hord => ?_⟩
  · rcases h with habove | ⟨hgrouped, hlast⟩
    · exact Or.inl (habove k hk)
    · have := (hw.below k hk).2
      rw [hw.due_eq hlast] at this
      exact Or.inr ⟨by omega, hgrouped⟩
  · by_cases hlast : taken.getLast? = some height
    · have hmem := List.mem_of_getLast? hlast
      exact Or.inr ⟨(hord.le_of_concat hc hmem).2 rfl, hlast⟩
    · refine Or.inl fun k hk => ?_
      have hlast' := List.getLast?_eq_some_getLast (List.ne_nil_of_mem hk)
      generalize taken.getLast (List.ne_nil_of_mem hk) = last at hlast'
      -- The last height is another one, so it lies below, and none is above it.
      have hle := (hord.le_of_concat hc (List.mem_of_getLast? hlast')).1
      have hne : last ≠ height := fun heq => hlast (heq ▸ hlast')
      have := (hw.below k hk).2
      rw [hw.due_eq hlast'] at this
      omega

theorem Tracks.broken_of_observe_eq_error {w : HeightWalk} {height : Nat} {reason : HeightError}
    (hw : w.Tracks taken) (hc : w.continuity ≠ .none) (h : w.observe height = .error reason) :
    w.continuity.Broken w.range taken height reason := by
  obtain ⟨next, hstep⟩ := exists_stepped_of_observe_eq_error h
  cases hstep with
  | outside _ hout => exact .outside hout
  | descending _ hin _ hlt =>
    have hord : ¬ w.continuity.Ordered (taken ++ [height]) := fun hord => by
      obtain ⟨next, hok⟩ := (hw.exists_observe_iff_ordered hc height).mpr ⟨hin, hord⟩
      rw [h] at hok
      cases hok
    cases hlast : taken.getLast? with
    | none =>
      rw [hw.due, hlast] at hlt
      exact absurd (BlockRange.mem_heights.mp hin).1 (Nat.not_le_of_lt hlt)
    | some last =>
      rw [hw.due_eq hlast]
      exact .descending hin hord hlast

theorem Tracks.observe_eq_error {w : HeightWalk} {height : Nat} {reason : HeightError}
    (hw : w.Tracks taken) (hc : w.continuity ≠ .none) :
    w.observe height = .error reason ↔ w.continuity.Broken w.range taken height reason := by
  refine ⟨hw.broken_of_observe_eq_error hc, fun hbroken => ?_⟩
  cases hobserve : w.observe height with
  | ok next =>
    have hok := (hw.exists_observe_iff_ordered hc height).mp ⟨next, hobserve⟩
    cases hbroken with
    | outside hout => exact absurd hok.1 hout
    | descending _ hord _ => exact absurd hok.2 hord
  | error reason' => rw [(hw.broken_of_observe_eq_error hc hobserve).unique hbroken]

theorem Tracks.observe {w next : HeightWalk} {height : Nat} (hw : w.Tracks taken)
    (hc : w.continuity ≠ .none) (h : w.observe height = .ok next) :
    next.Tracks (taken ++ [height]) := by
  have hrange := range_of_observe h
  have hself : height ∈ taken ++ [height] := List.mem_append_right _ (List.mem_singleton_self _)
  have hmore {run : BlockRange} (hbegins : BeginsRun w.range taken run) :
      BeginsRun next.range (taken ++ [height]) run := by
    rw [hrange]
    exact hbegins.imp_right fun ⟨k, hk, hstart⟩ => ⟨k, List.mem_append_left _ hk, hstart⟩
  obtain ⟨skipped, hmissing, hskipped⟩ := exists_skipped_of_observe h
  refine ⟨hw.toSeen.observe hc h, ?_, ?_, ?_, fun run hrun => ?_⟩
  · rw [continuity_of_observe h]
    exact ((hw.exists_observe_iff_ordered hc height).mp ⟨next, h⟩).2
  · rw [List.getLast?_concat]
    rcases (of_observe hc h).2 with ⟨hlast, rfl⟩ | ⟨-, -, -, -, hlast, -⟩
    · exact hlast
    · exact hlast
  · rw [List.getLast?_concat, Option.map_some, Option.getD_some]
    rcases (of_observe hc h).2 with ⟨hlast, rfl⟩ | ⟨-, -, -, hdue, -⟩
    · exact hw.due_eq (hw.last_eq.symm.trans hlast)
    · exact hdue
  · rw [hmissing, List.mem_append] at hrun
    rcases hrun with hrun | hrun
    · obtain ⟨hbegins, hends⟩ := hw.runs run hrun
      exact ⟨hmore hbegins, List.mem_append_left _ hends⟩
    · obtain ⟨hstart, hstop⟩ := hskipped run hrun
      exact ⟨hmore (hw.begins_of_start_eq hstart), hstop ▸ hself⟩

theorem Tracks.observeAll {heights : List Nat} : ∀ {w next : HeightWalk} {taken : List Nat},
    w.Tracks taken → w.continuity ≠ .none → w.observeAll heights = .ok next →
      next.Tracks (taken ++ heights) := by
  induction heights with
  | nil =>
    intro w next taken hw _ h
    cases h
    rwa [List.append_nil]
  | cons height heights ih =>
    intro w next taken hw hc h
    obtain ⟨w', hobserve, h⟩ := observeAll_cons_eq_ok.mp h
    rw [List.append_cons]
    exact ih (hw.observe hc hobserve) (continuity_of_observe hobserve ▸ hc) h

/-- **A finished walk has found the maximal runs** of heights that it has not accepted. -/
theorem Tracks.missingRuns_finish {w : HeightWalk} (hw : w.Tracks taken)
    (hc : w.continuity ≠ .none) : MissingRuns w.range taken w.finish := by
  refine missingRuns_of_heightsIn (heightsIn_finish hw.toSeen hc) fun run hrun => ?_
  have hnoted (run : BlockRange) (hrun : run ∈ w.missing) :
      BeginsRun w.range taken run ∧ EndsRun w.range taken run :=
    (hw.runs run hrun).imp_right Or.inr
  rw [finish, if_neg hc] at hrun
  split at hrun
  · rcases List.mem_append.mp hrun with hrun | hrun
    · exact hnoted run hrun
    · -- The run behind the last accepted height.
      cases List.mem_singleton.mp hrun
      exact ⟨hw.begins_of_start_eq rfl, Or.inl rfl⟩
  · exact hnoted run hrun

/-! ### Going on after a height that is not accepted -/

theorem eq_of_step_eq_error {w next : HeightWalk} {height : Nat} {reason : HeightError}
    (h : (step height).run.run w = (.error reason, next)) : next = w := by
  have hstep := stepped_step w height
  rw [h] at hstep
  cases hstep with
  | outside _ _ => rfl
  | descending _ _ _ _ => rfl

/-- The heights that a walk accepts among those that it comes to. -/
def accepted (w : HeightWalk) : List Nat → List Nat
  | [] => []
  | height :: heights =>
    match (step height).run.run w with
    | (.ok (), next) => height :: next.accepted heights
    | (.error _, next) => next.accepted heights

theorem walk_cons (w : HeightWalk) (height : Nat) (heights : List Nat) :
    w.walk (height :: heights) = ((step height).run.run w).2.walk heights := rfl

/-- **Going on keeps what a walk has found**, and adds the heights accepted on the way. -/
theorem Tracks.walk (heights : List Nat) : ∀ {w : HeightWalk} {taken : List Nat}, w.Tracks taken →
    w.continuity ≠ .none →
      (w.walk heights).Tracks (taken ++ w.accepted heights) ∧
        (w.walk heights).range = w.range ∧ (w.walk heights).continuity = w.continuity ∧
          w.missing <+: (w.walk heights).missing := by
  induction heights with
  | nil =>
    intro w taken hw _
    rw [accepted, List.append_nil]
    exact ⟨hw, rfl, rfl, List.prefix_rfl⟩
  | cons height heights ih =>
    intro w taken hw hc
    rw [walk_cons, accepted]
    rcases hstep : (step height).run.run w with ⟨reason | ⟨⟩, next⟩
    · cases eq_of_step_eq_error hstep
      exact ih hw hc
    · have hobserve := observe_eq_ok.mpr hstep
      have hc' := continuity_of_observe hobserve
      obtain ⟨skipped, hmissing, -⟩ := exists_skipped_of_observe hobserve
      obtain ⟨htracks, hrange, hcont, hprefix⟩ := ih (hw.observe hc hobserve) (hc' ▸ hc)
      rw [List.append_assoc, List.singleton_append] at htracks
      exact ⟨htracks, hrange.trans (range_of_observe hobserve), hcont.trans hc',
        (hmissing ▸ List.prefix_append w.missing skipped).trans hprefix⟩

theorem missing_prefix_finish (w : HeightWalk) (hc : w.continuity ≠ .none) :
    w.missing <+: w.finish := by
  rw [finish, if_neg hc]
  split
  · exact List.prefix_append _ _
  · exact List.prefix_rfl

/-- **The runs found are the complement of the heights accepted.** For any heights, in whatever
order and also outside the range, after which the walk goes on:
* a height is accepted exactly if it lies in the range and above all heights accepted so far, or
  repeats the last accepted one of a grouped walk;
* a height that is not accepted leaves the walk as it was;
* the finished walk has the maximal runs of heights of the range that were not accepted;
* the accepted heights and the heights of the runs are the heights of the range, each once;
* the runs noted at any time are among them, so that none begins above its end. -/
theorem missingRuns_finish_walk (range : BlockRange) {c : Continuity} (hc : c ≠ .none)
    (heights : List Nat) :
    let w := (begin range c).walk heights
    let taken := (begin range c).accepted heights
    (∀ height, (∃ next, (step height).run.run w = (.ok (), next)) ↔ height ∈ range.heights ∧
      ((∀ k ∈ taken, k < height) ∨ (c = .grouped ∧ taken.getLast? = some height))) ∧
    (∀ height reason next, (step height).run.run w = (.error reason, next) → next = w) ∧
    MissingRuns range taken w.finish ∧
    (taken.dedup ++ heightsIn w.finish).Perm range.heights ∧
    ∀ before, before <+: heights → ((begin range c).walk before).missing <+: w.finish := by
  intro w taken
  obtain ⟨htracks, hrange, hcont, -⟩ := (tracks_begin range c).walk heights hc
  change w.Tracks ([] ++ taken) at htracks
  change w.range = range at hrange
  rw [List.nil_append] at htracks
  have hc' : w.continuity ≠ .none := hcont.trans_ne hc
  refine ⟨fun height => ?_, fun height reason next h => eq_of_step_eq_error h, ?_, ?_, ?_⟩
  · have haccepts := htracks.exists_observe_iff hc' height
    simp only [observe_eq_ok] at haccepts
    rw [haccepts, hrange, hcont]
    rfl
  · rw [← hrange]
    exact htracks.missingRuns_finish hc'
  · rw [heightsIn_finish htracks.toSeen hc', hrange]
    refine perm_dedup_append_filter range.nodup_heights fun k hk => ?_
    have hbelow := htracks.below k hk
    have hle := htracks.expected_le
    rw [hrange] at hbelow hle
    rw [BlockRange.mem_heights]
    omega
  · rintro before ⟨after, hafter⟩
    -- The walk after the first heights goes on with the others.
    obtain ⟨hbefore, -, hcont', -⟩ := (tracks_begin range c).walk before hc
    have hmore := (hbefore.walk after (hcont'.trans_ne hc)).2.2.2
    have happend : ((begin range c).walk before).walk after = w := by
      rw [HeightWalk.walk, HeightWalk.walk, ← List.foldl_append, hafter]
      rfl
    rw [happend] at hmore
    exact hmore.trans (missing_prefix_finish w hc')

/-- A grouped walk up to the largest height, with repeated heights and three that are not accepted:
one below the range, one below the last one, and one after the range has been walked to its end. -/
theorem missingRuns_topmost :
    let top := 0xFFFF_FFFF_FFFF_FFFF
    let range : BlockRange := ⟨top - 5, top, by decide, by decide⟩
    let heights := [top - 4, top - 4, 7, top - 5, top - 1, top, top - 2, top]
    let w := (begin range .grouped).walk heights
    let taken := (begin range .grouped).accepted heights
    taken = [top - 4, top - 4, top - 1, top, top] ∧
      w.finish =
        [⟨top - 5, top - 5, by decide, by decide⟩, ⟨top - 3, top - 2, by decide, by decide⟩] ∧
      MissingRuns range taken w.finish := by
  intro top range heights w taken
  have hruns := missingRuns_finish_walk range (c := .grouped) (by decide) heights
  exact ⟨by decide, by decide, hruns.2.2.1⟩

end HeightWalk

end ChainMigration
