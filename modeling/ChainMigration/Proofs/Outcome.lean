import ChainMigration.Engine.Work
import ChainMigration.Proofs.Upgrade

/-! # How the work on a range can end

The work on a range ends in exactly one of four ways, whatever the endpoints answer
(`processRange_ending`): the rows cannot be read, there are none, they cannot be converted or
written, or all of them are written. For each way it is laid down what is written and what is told.
For a required table that promises heights this leaves no height out: the heights of the range are
divided between the rows that were written and the gaps that were told. -/

namespace ChainMigration

namespace Outcome

/-- The gaps that were told on a side, in order. -/
def gaps (o : Outcome) (kind : GapKind) : List Gap := o.notices.filterMap (Notice.gap? kind)

/-- The failures that were told, in order. -/
def failures (o : Outcome) : List MigrationError := o.notices.filterMap Notice.failure?

/-- The ranges of all gaps, read gaps first. -/
def gapRanges (o : Outcome) : List BlockRange := (o.gaps .read ++ o.gaps .write).map (·.range)

/-- The heights of which rows were written, each once, if the read was answered like this. -/
def heightsWritten (o : Outcome) (answer : Except MigrationError OldRows) : List Nat :=
  match o.written, answer with
  | some _, .ok old => old.heights.dedup
  | _, _ => []

end Outcome

variable {ends : Endpoints} {p : Policy} {t : Table} {range : BlockRange}

/-! ### The exits -/

/-- **The exits of the work on a range**, each with the answers that lead to it. -/
inductive Worked (ends : Endpoints) (p : Policy) (t : Table) (range : BlockRange) : Outcome → Prop
  | unread {reason : MigrationError} (hread : ends.read t range = .error reason) :
    Worked ends p t range
      ⟨none, (p.readFailureGap t).toList.map (.gap · ⟨range, .readFailed⟩) ++ [.failure reason]⟩
  | empty {old : OldRows} (hread : ends.read t range = .ok old) (hrows : old.rows = []) :
    Worked ends p t range
      ⟨none, if p.requires t then
        [.gap .read ⟨range, .emptyRange⟩, .failure (.read t.name range .noRows)] else []⟩
  | rejected {old : OldRows} {fault : UpgradeError} (hread : ends.read t range = .ok old)
    (hrows : old.rows ≠ []) (hup : t.upgrade range old = .error fault) :
    Worked ends p t range
      ⟨none, writeFailure range .transformFailed (.transform t.name range fault)⟩
  | refused {old : OldRows} {upgraded : Upgraded} {reason : MigrationError}
    (hread : ends.read t range = .ok old) (hrows : old.rows ≠ [])
    (hup : t.upgrade range old = .ok upgraded)
    (hwrite : ends.write t range upgraded.rows = .error reason) :
    Worked ends p t range ⟨none, writeFailure range .writeFailed reason⟩
  | written {old : OldRows} {upgraded : Upgraded} {count : Nat}
    (hread : ends.read t range = .ok old) (hrows : old.rows ≠ [])
    (hup : t.upgrade range old = .ok upgraded)
    (hwrite : ends.write t range upgraded.rows = .ok count) :
    Worked ends p t range
      ⟨some upgraded.rows, upgraded.missing.map fun missing => .gap .read ⟨missing, .discontinuity⟩⟩

theorem worked_processRange (ends : Endpoints) (p : Policy) (t : Table) (range : BlockRange) :
    Worked ends p t range (processRange ends p t range) := by
  unfold processRange
  cases hread : ends.read t range with
  | error reason => exact .unread hread
  | ok old =>
    by_cases hrows : old.rows = []
    · have hafter : afterRead p t range (.ok old) = .finished (if p.requires t then
          [.gap .read ⟨range, .emptyRange⟩, .failure (.read t.name range .noRows)] else []) := by
        rw [afterRead, if_pos (List.isEmpty_iff.mpr hrows)]
      rw [hafter]
      exact .empty hread hrows
    · have hempty : ¬ old.rows.isEmpty = true := fun h => hrows (List.isEmpty_iff.mp h)
      cases hup : t.upgrade range old with
      | error fault =>
        have hafter : afterRead p t range (.ok old) =
            .finished (writeFailure range .transformFailed (.transform t.name range fault)) := by
          rw [afterRead, if_neg hempty, hup]
        rw [hafter]
        exact .rejected hread hrows hup
      | ok upgraded =>
        have hafter : afterRead p t range (.ok old) = .batch upgraded := by
          rw [afterRead, if_neg hempty, hup]
        rw [hafter]
        dsimp only
        cases hwrite : ends.write t range upgraded.rows with
        | error reason => exact .refused hread hrows hup hwrite
        | ok count => exact .written hread hrows hup hwrite

/-! ### What is told -/

theorem filterMap_gap?_readFailure (side : Option GapKind) (gap : Gap) (reason : MigrationError)
    (kind : GapKind) :
    (side.toList.map (Notice.gap · gap) ++ [Notice.failure reason]).filterMap (Notice.gap? kind) =
      if side = some kind then [gap] else [] := by
  cases side with
  | none => rfl
  | some k => cases k <;> cases kind <;> rfl

theorem filterMap_failure?_readFailure (side : Option GapKind) (gap : Gap)
    (reason : MigrationError) :
    (side.toList.map (Notice.gap · gap) ++ [Notice.failure reason]).filterMap Notice.failure? =
      [reason] := by
  cases side <;> rfl

theorem filterMap_gap?_discontinuities (ranges : List BlockRange) (kind : GapKind) :
    (ranges.map fun missing => Notice.gap .read ⟨missing, .discontinuity⟩).filterMap
        (Notice.gap? kind) =
      if kind = .read then ranges.map (⟨·, .discontinuity⟩) else [] := by
  rw [List.filterMap_map]
  cases kind with
  | read => exact congrFun List.filterMap_eq_map ranges
  | write => exact List.filterMap_eq_nil_iff.mpr fun _ _ => rfl

theorem filterMap_failure?_discontinuities (ranges : List BlockRange) :
    (ranges.map fun missing => Notice.gap .read ⟨missing, .discontinuity⟩).filterMap
      Notice.failure? = [] := by
  rw [List.filterMap_map]
  exact List.filterMap_eq_nil_iff.mpr fun _ _ => rfl

theorem gapRanges_discontinuities (written : Option NewRows) (ranges : List BlockRange) :
    Outcome.gapRanges ⟨written, ranges.map fun missing => .gap .read ⟨missing, .discontinuity⟩⟩ =
      ranges := by
  unfold Outcome.gapRanges Outcome.gaps
  dsimp only
  rw [filterMap_gap?_discontinuities, filterMap_gap?_discontinuities, if_pos rfl,
    if_neg (by decide), List.append_nil, List.map_map]
  exact List.map_id _

/-! ### Heights -/

/-- **No height is left out**: in a required table that promises heights, the heights of a range are
divided between the rows that were written and the gaps that were told. -/
theorem Worked.perm_heights {o : Outcome} (h : Worked ends p t range o)
    (hc : t.continuity ≠ .none) (hp : p.requires t = true) :
    (o.heightsWritten (ends.read t range) ++ heightsIn o.gapRanges).Perm range.heights := by
  -- A gap over the whole range covers it at once.
  have hwhole : ∀ gap : Gap, gap.range = range →
      heightsIn ([gap].map (·.range)) = range.heights := by
    rintro gap rfl
    exact heightsIn_singleton _
  cases h with
  | unread hread =>
    have hside : p.readFailureGap t = some .read := by
      rw [Policy.readFailureGap, if_pos hp]
    rw [hside]
    exact .of_eq (hwhole _ rfl)
  | empty hread hrows =>
    rw [if_pos hp]
    exact .of_eq (hwhole _ rfl)
  | rejected => exact .of_eq (hwhole _ rfl)
  | refused => exact .of_eq (hwhole _ rfl)
  | @written old upgraded count hread hrows hup hwrite =>
    obtain ⟨hmissing, hsub⟩ := Table.heightsIn_missing hc hup
    rw [gapRanges_discontinuities, hmissing, hread]
    exact perm_dedup_append_filter range.nodup_heights hsub

/-! ### The endings -/

/-- How the work on a range can end. -/
inductive Ending
  /-- The rows could not be read. -/
  | unread
  /-- There were no rows. -/
  | empty
  /-- The rows could not be converted, or the new rows could not be written. -/
  | unwritten
  /-- The new rows were written. -/
  | written
deriving DecidableEq

/-- **What an ending comes to**: which answers lead to it, what is written and what is told. -/
def Ending.Describes (ends : Endpoints) (p : Policy) (t : Table) (range : BlockRange)
    (o : Outcome) : Ending → Prop
  | unread => ∃ reason, ends.read t range = .error reason ∧ o.written = none ∧
      o.failures = [reason] ∧
      ∀ kind, o.gaps kind =
        if p.readFailureGap t = some kind then [⟨range, .readFailed⟩] else []
  | empty => ∃ old, ends.read t range = .ok old ∧ old.rows = [] ∧ o.written = none ∧
      o.gaps .write = [] ∧
      if p.requires t then
        o.gaps .read = [⟨range, .emptyRange⟩] ∧ o.failures = [.read t.name range .noRows]
      else o.gaps .read = [] ∧ o.failures = []
  | unwritten => ∃ old reason why, ends.read t range = .ok old ∧ old.rows ≠ [] ∧
      ((why = .transformFailed ∧ ∃ fault, t.upgrade range old = .error fault ∧
          reason = .transform t.name range fault) ∨
        (why = .writeFailed ∧ ∃ upgraded, t.upgrade range old = .ok upgraded ∧
          ends.write t range upgraded.rows = .error reason)) ∧
      o.written = none ∧ o.failures = [reason] ∧ o.gaps .write = [⟨range, why⟩] ∧
      o.gaps .read = []
  | written => ∃ (rows : List (OldRow t)) (news : List (NewRow t)) (count : Nat),
      ends.read t range = .ok ⟨t, rows⟩ ∧ ends.write t range ⟨t, news⟩ = .ok count ∧
      o.written = some ⟨t, news⟩ ∧ news ≠ [] ∧ news.length = rows.length ∧
      List.Forall₂ OldRow.Becomes rows news ∧ o.failures = [] ∧ o.gaps .write = [] ∧
      ∀ gap ∈ o.gaps .read, gap.reason = .discontinuity

theorem Worked.exists_ending {o : Outcome} (h : Worked ends p t range o) :
    ∃ e : Ending, e.Describes ends p t range o := by
  cases h with
  | unread hread =>
    exact ⟨.unread, _, hread, rfl, filterMap_failure?_readFailure _ _ _,
      filterMap_gap?_readFailure _ _ _⟩
  | empty hread hrows =>
    refine ⟨.empty, _, hread, hrows, rfl, ?_⟩
    cases p.requires t <;> exact ⟨rfl, rfl, rfl⟩
  | rejected hread hrows hup =>
    exact ⟨.unwritten, _, _, _, hread, hrows, Or.inl ⟨rfl, _, hup, rfl⟩, rfl, rfl, rfl, rfl⟩
  | refused hread hrows hup hwrite =>
    exact ⟨.unwritten, _, _, _, hread, hrows, Or.inr ⟨rfl, _, hup, hwrite⟩, rfl, rfl, rfl, rfl⟩
  | written hread hrows hup hwrite =>
    obtain ⟨rows, news, w, rfl, rfl, -, hall⟩ := Table.upgrade_eq_ok.mp hup
    have hlen := hall.length_eq
    refine ⟨.written, rows, news, _, hread, hwrite, rfl, ?_, hlen.symm, hall,
      filterMap_failure?_discontinuities _, filterMap_gap?_discontinuities _ _, ?_⟩
    · rintro rfl
      exact hrows (List.length_eq_zero_iff.mp hlen)
    · intro gap hgap
      unfold Outcome.gaps at hgap
      rw [filterMap_gap?_discontinuities, if_pos rfl, List.mem_map] at hgap
      obtain ⟨missing, -, rfl⟩ := hgap
      rfl

/-- The ending to which an answer to the read and the rows written belong. -/
def Ending.of (answer : Except MigrationError OldRows) (o : Outcome) : Ending :=
  match answer with
  | .error _ => unread
  | .ok old => if old.rows.isEmpty then empty else if o.written.isSome then written else unwritten

theorem Ending.Describes.eq_of {o : Outcome} {e : Ending} (h : e.Describes ends p t range o) :
    e = .of (ends.read t range) o := by
  unfold Ending.of
  cases e with
  | unread =>
    obtain ⟨reason, hread, -⟩ := h
    rw [hread]
  | empty =>
    obtain ⟨old, hread, hrows, -⟩ := h
    rw [hread]
    dsimp only
    rw [if_pos (List.isEmpty_iff.mpr hrows)]
  | unwritten =>
    obtain ⟨old, reason, why, hread, hrows, -, hnone, -⟩ := h
    rw [hread]
    dsimp only
    rw [if_neg (fun h => hrows (List.isEmpty_iff.mp h)), hnone, if_neg (by decide)]
  | written =>
    obtain ⟨rows, news, count, hread, -, hsome, hnews, hlen, -⟩ := h
    have hrows : ¬ rows.isEmpty = true := by
      intro hrows
      rw [List.isEmpty_iff.mp hrows] at hlen
      exact hnews (List.length_eq_zero_iff.mp hlen)
    rw [hread]
    dsimp only
    rw [if_neg hrows, hsome]
    rfl

/-- **The work on a range ends in exactly one way**, whatever the endpoints answer; and in a
required table that promises heights, the heights of the range are divided between the rows that
were written and the gaps that were told. -/
theorem processRange_ending (ends : Endpoints) (p : Policy) (t : Table) (range : BlockRange) :
    (∃! e : Ending, e.Describes ends p t range (processRange ends p t range)) ∧
      (t = .headers ∨ t = .state ∨ t = .accounts → p.requires t = true →
        ((processRange ends p t range).heightsWritten (ends.read t range) ++
          heightsIn (processRange ends p t range).gapRanges).Perm range.heights) := by
  have hworked := worked_processRange ends p t range
  refine ⟨?_, ?_⟩
  · obtain ⟨e, he⟩ := hworked.exists_ending
    exact ⟨e, he, fun e' he' => he'.eq_of.trans he.eq_of.symm⟩
  · intro ht hp
    refine hworked.perm_heights ?_ hp
    rcases ht with rfl | rfl | rfl <;> decide

/-- A node of the state trie at a height. -/
def stateNodeAt (height : String) : OldStateNode := ⟨height, "", none, none, 0, "", "", false⟩

/-- Endpoints that hold state nodes at two heights and accept everything. -/
def twoStateNodes : Endpoints where
  read t _ := match t with
    | .state => .ok ⟨.state, [stateNodeAt "3", stateNodeAt "5"]⟩
    | t => .ok ⟨t, []⟩
  write _ _ new := .ok new.rows.length
  bounds := .ok (3, 5)
  lastPage _ := .ok 0
  copy _ _ := .ok 0

/-- State nodes at the heights 3 and 5 of a range are written; the height between them is a gap. -/
theorem twoStateNodes_divided :
    let p : Policy := ⟨1, [.state], false⟩
    let range : BlockRange := ⟨3, 5, by decide, by decide⟩
    let o := processRange twoStateNodes p .state range
    o.gapRanges = [⟨4, 4, by decide, by decide⟩] ∧
      (o.heightsWritten (twoStateNodes.read .state range) ++ heightsIn o.gapRanges).Perm
        [3, 4, 5] :=
  ⟨by decide +kernel,
    (processRange_ending twoStateNodes ⟨1, [.state], false⟩ .state ⟨3, 5, by decide, by decide⟩).2
      (by decide) (by decide)⟩

end ChainMigration
