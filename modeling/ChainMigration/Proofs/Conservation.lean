import ChainMigration.Proofs.ExitStatus
import ChainMigration.Proofs.Segments
import Mathlib.Data.List.Pairwise

/-! # No height is lost and none is counted twice

In a required table that promises heights, every height of the planned ranges ends in exactly one
place: a row of it was written, or it lies in one gap, on the read side or on the write side
(`MigrationRun.gapHeights_eq`).

What the reads and writes of a run answer is part of its events. If no range is taken twice, then no
range is read or written twice, and so there are endpoints which give just these answers
(`Pool.History.exists_follows`). The heights are then counted range by range, as the work on each
range divides its heights (`Worked.perm_heights`). -/

namespace ChainMigration

variable {ends : Endpoints} {p : Policy} {t : Table} {closing : Bool} {pool next : Pool}
  {move : PoolMove} {moves : List PoolMove} {range : BlockRange}

/-! ### Endpoints that give the answers of a run -/

theorem eq_of_mem_flatMap {α β : Type} {f : α → List β} {l : List α} {a b : α} {x : β}
    (h : (l.flatMap f).Nodup) (ha : a ∈ l) (hb : b ∈ l) (hxa : x ∈ f a) (hxb : x ∈ f b) :
    a = b := by
  by_contra hne
  have : Std.Symm (Function.onFun List.Disjoint f) := ⟨fun _ _ => List.Disjoint.symm⟩
  have hdisj : (f a).Disjoint (f b) := (List.nodup_flatMap.mp h).2.forall ha hb hne
  exact hdisj hxa hxb

/-- The range of which a write is answered. -/
def PoolMove.writeAnswered : PoolMove → List BlockRange
  | write _ range _ _ => [range]
  | _ => []

/-- The range of which a worker waits for the new rows to be written. -/
def Worker.holding : Worker → List BlockRange
  | writing range _ => [range]
  | _ => []

theorem Worker.holding_telling (range : BlockRange) (notices : List Notice) :
    (telling range notices).holding = [] := by
  cases notices <;> rfl

theorem Worker.holding_goOn (range : BlockRange) (a : AfterRead) :
    ∃ dropped, dropped ++ (goOn range a).holding = [range] := by
  cases a with
  | finished notices => exact ⟨[range], by rw [goOn, holding_telling]; rfl⟩
  | batch => exact ⟨[], rfl⟩

namespace Pool

theorem Step.subperm_holding (h : pool.Step p closing move next) :
    (move.writeAnswered ++ next.workers.flatMap Worker.holding).Subperm
      (pool.workers.flatMap Worker.holding ++ move.answered) := by
  have hset : ∀ {i : Nat} {w v : Worker}, pool.workers[i]? = some w → w.holding = [] →
      v.holding = [] → ([] ++ (pool.workers.set i v).flatMap Worker.holding).Subperm
        (pool.workers.flatMap Worker.holding ++ []) :=
    fun hi hw hv => (perm_flatMap_set hi (by rw [hw, hv])).subperm
  cases h with
  | look hw hlook => rcases hlook with rfl | ⟨rfl, -⟩ <;> exact hset hw rfl rfl
  | take hw => exact hset hw rfl rfl
  | sleep hw => exact hset hw rfl rfl
  | @read i range answer hw =>
    obtain ⟨dropped, hdropped⟩ :=
      Worker.holding_goOn range (afterRead p pool.table range answer)
    have hsplit : dropped ++ (Worker.goOn range (afterRead p pool.table range answer)).holding =
        (Worker.reading range).holding ++ [range] := hdropped
    have hperm := perm_flatMap_set (f := Worker.holding) hw hsplit
    exact (List.sublist_append_right dropped _).subperm.trans hperm.subperm
  | write hw =>
    refine (perm_flatMap_set hw ?_).subperm
    rw [Worker.holding_telling]
    rfl
  | tell hw => exact hset hw rfl (Worker.holding_telling _ _)
  | exit hw hexit =>
    rcases hexit with ⟨rfl | rfl, -⟩ | ⟨rfl, -⟩ <;> exact hset hw rfl rfl
  | _ => exact (List.Perm.of_eq (List.append_nil _).symm).subperm

namespace History

/-- **Each range that is read is written once at most.** -/
theorem subperm_writeAnswered (h : pool.History p moves) :
    (moves.flatMap (·.writeAnswered) ++ pool.workers.flatMap Worker.holding).Subperm
      (moves.flatMap (·.answered)) := by
  induction h with
  | fresh =>
    rw [begun, Pool.fresh, flatMap_replicate_nil rfl]
    exact .refl _
  | move _ h ih =>
    rw [List.flatMap_append, List.flatMap_append, List.flatMap_singleton, List.flatMap_singleton,
      List.append_assoc]
    refine ((List.subperm_append_left _).mpr h.subperm_holding).trans ?_
    rw [← List.append_assoc]
    exact (List.subperm_append_right _).mpr ih

/-- If no range was taken twice, there are endpoints that give the answers of the moves. -/
theorem exists_follows (h : pool.History p moves) (hnodup : (moves.flatMap (·.taken)).Nodup)
    (t : Table) : ∃ ends : Endpoints, ∀ move ∈ moves, move.Follows ends t := by
  have hanswered : (moves.flatMap (·.answered)).Nodup :=
    (h.perm_answered.nodup_iff.mpr hnodup).of_append_left
  have hwritten : (moves.flatMap (·.writeAnswered)).Nodup := by
    obtain ⟨among, hperm, hsub⟩ := h.subperm_writeAnswered
    exact (hperm.nodup_iff.mp (hanswered.sublist hsub)).of_append_left
  have hread : ∀ range, ∃ answer, ∀ i a, .read i range a ∈ moves → a = answer := by
    intro range
    by_cases hsome : ∃ i a, .read i range a ∈ moves
    · obtain ⟨i, a, hmem⟩ := hsome
      refine ⟨a, fun j b hmem' => ?_⟩
      cases eq_of_mem_flatMap hanswered hmem hmem' (List.mem_singleton_self range)
        (List.mem_singleton_self range)
      rfl
    · exact ⟨.error .cancelled, fun i a hmem => absurd ⟨i, a, hmem⟩ hsome⟩
  have hwrite : ∀ range, ∃ answer, ∀ i rows a, .write i range rows a ∈ moves → a = answer := by
    intro range
    by_cases hsome : ∃ i rows a, .write i range rows a ∈ moves
    · obtain ⟨i, rows, a, hmem⟩ := hsome
      refine ⟨a, fun j rows' b hmem' => ?_⟩
      cases eq_of_mem_flatMap hwritten hmem hmem' (List.mem_singleton_self range)
        (List.mem_singleton_self range)
      rfl
    · exact ⟨.error .cancelled, fun i rows a hmem => absurd ⟨i, rows, a, hmem⟩ hsome⟩
  choose read hread using hread
  choose write hwrite using hwrite
  refine ⟨⟨fun _ => read, fun _ range _ => write range, .error .cancelled,
    fun _ => .error .cancelled, fun _ _ => .error .cancelled⟩, fun move hmove => ?_⟩
  cases move with
  | read i range answer => exact hread range i answer hmove
  | write i range rows answer => exact hwrite range i rows answer hmove
  | _ => trivial

end History

end Pool

/-! ### Heights written -/

theorem nodup_of_nodup_heightsIn {ranges : List BlockRange} (h : (heightsIn ranges).Nodup) :
    ranges.Nodup := by
  refine (pairwise_disjoint_iff.mpr h).imp fun {r r'} hdisj => ?_
  rintro rfl
  have hstart : r.start ∈ r.heights := BlockRange.mem_heights.mpr ⟨le_rfl, r.start_le_stop⟩
  exact hdisj hstart hstart

namespace PoolMove

/-- The range of which rows are written. -/
def written : PoolMove → List BlockRange
  | write _ range _ answer => if answer.isOk then [range] else []
  | _ => []

/-- The heights of the rows that are read of a range. -/
def heightsRead (range : BlockRange) : PoolMove → List Nat
  | read _ r (.ok old) => if r = range then old.heights else []
  | _ => []

end PoolMove

/-- The heights of which rows were written: those of the rows read of the ranges that were
written. -/
def heightsWritten (moves : List PoolMove) : List Nat :=
  (moves.flatMap (·.written)).flatMap fun range => moves.flatMap (·.heightsRead range)

theorem PoolMove.mem_written :
    range ∈ move.written ↔ ∃ rows, .written range rows ∈ move.effects := by
  cases move with
  | write i r rows answer =>
    rw [written, effects]
    cases answer.isOk <;> simp
  | _ => simp [written, effects]

theorem PoolMove.mem_heightsRead {height : Nat} : height ∈ move.heightsRead range ↔
    ∃ old : OldRows, .read range (.ok old) ∈ move.effects ∧ height ∈ old.heights := by
  cases move with
  | read i r answer =>
    cases answer with
    | error reason => simp [heightsRead, effects]
    | ok old =>
      rw [heightsRead, effects]
      by_cases heq : r = range
      · simp [heq]
      · simp [heq, Ne.symm heq]
  | write i r rows answer =>
    rw [effects]
    cases answer.isOk <;> simp [heightsRead]
  | _ => simp [heightsRead, effects]

theorem mem_heightsWritten {height : Nat} : height ∈ heightsWritten moves ↔
    ∃ range rows, ∃ old : OldRows, .written range rows ∈ moves.flatMap (·.effects) ∧
      .read range (.ok old) ∈ moves.flatMap (·.effects) ∧ height ∈ old.heights := by
  simp only [heightsWritten, List.mem_flatMap, PoolMove.mem_written, PoolMove.mem_heightsRead]
  grind

theorem mem_rangeEffects_written {range' : BlockRange} {rows : NewRows} :
    .written range rows ∈ rangeEffects ends p t range' ↔
      range = range' ∧ (processRange ends p t range').written = some rows := by
  simp [rangeEffects]
  grind

theorem mem_rangeEffects_read {range' : BlockRange} {answer : Except MigrationError OldRows} :
    .read range answer ∈ rangeEffects ends p t range' ↔
      range = range' ∧ answer = ends.read t range' := by
  simp [rangeEffects]

theorem Outcome.mem_heightsWritten {o : Outcome} {answer : Except MigrationError OldRows}
    {height : Nat} : height ∈ o.heightsWritten answer ↔
      ∃ rows, ∃ old : OldRows, o.written = some rows ∧ answer = .ok old ∧ height ∈ old.heights := by
  unfold heightsWritten
  split
  · next rows old hrows =>
    rw [hrows]
    simp
  · next hneither =>
    refine iff_of_false List.not_mem_nil ?_
    rintro ⟨rows, old, hrows, rfl, -⟩
    exact hneither rows old hrows rfl

namespace Pool.History

variable {ranges : List BlockRange}

/-- The heights written are those of the rows that were written in the work on the ranges taken. -/
theorem mem_heightsWritten_iff (h : pool.History p moves) (hexited : pool.exited = true)
    (hf : ∀ move ∈ moves, move.Follows ends pool.table) {height : Nat} :
    height ∈ heightsWritten moves ↔ ∃ range ∈ moves.flatMap (·.taken),
      height ∈ (processRange ends p pool.table range).heightsWritten
        (ends.read pool.table range) := by
  have hperm := h.perm_effects hf
  rw [ahead_of_exited hexited, List.append_nil] at hperm
  have heffect : ∀ effect, effect ∈ moves.flatMap (·.effects) ↔
      ∃ range ∈ moves.flatMap (·.taken), effect ∈ rangeEffects ends p pool.table range :=
    fun effect => hperm.mem_iff.trans List.mem_flatMap
  simp only [mem_heightsWritten, heffect, mem_rangeEffects_written, mem_rangeEffects_read,
    Outcome.mem_heightsWritten]
  grind

theorem perm_gapsTold (h : pool.History p moves) (hexited : pool.exited = true)
    (hf : ∀ move ∈ moves, move.Follows ends pool.table) :
    ((moves.flatMap (·.told.filterMap (·.gap? .read)) ++
        moves.flatMap (·.told.filterMap (·.gap? .write))).map (·.range)).Perm
      ((moves.flatMap (·.taken)).flatMap fun range =>
        (processRange ends p pool.table range).gapRanges) := by
  have htold := h.perm_told hf hexited
  rw [told_filterMap, told_filterMap]
  refine (((htold.filterMap _).append (htold.filterMap _)).map _).trans ?_
  rw [List.filterMap_flatMap, List.filterMap_flatMap]
  refine ((List.flatMap_append_perm _ _ _).map _).trans (.of_eq ?_)
  rw [List.map_flatMap]
  rfl

/-- **Each height that was taken ended in one place**: rows of it were written or it lies in one gap
that was told. -/
theorem perm_heights (h : pool.History p moves) (hexited : pool.exited = true)
    (hnodup : (heightsIn (moves.flatMap (·.taken))).Nodup)
    (hc : pool.table.continuity ≠ .none) (hp : p.requires pool.table = true) :
    ((heightsWritten moves).dedup ++ heightsIn
      ((moves.flatMap (·.told.filterMap (·.gap? .read)) ++
        moves.flatMap (·.told.filterMap (·.gap? .write))).map (·.range))).Perm
      (heightsIn (moves.flatMap (·.taken))) := by
  obtain ⟨ends, hf⟩ := h.exists_follows (nodup_of_nodup_heightsIn hnodup) pool.table
  set ranges := moves.flatMap (·.taken) with hranges
  set written := ranges.flatMap fun range =>
    (processRange ends p pool.table range).heightsWritten (ends.read pool.table range) with hwritten
  set gaps := ranges.flatMap fun range => (processRange ends p pool.table range).gapRanges
    with hgaps
  -- Range by range the heights are divided.
  have hdivided : (written ++ heightsIn gaps).Perm (heightsIn ranges) := by
    have hgapHeights : heightsIn gaps = ranges.flatMap fun range =>
        heightsIn (processRange ends p pool.table range).gapRanges := List.flatMap_assoc
    rw [hgapHeights]
    refine (List.flatMap_append_perm _ _ _).trans ?_
    exact List.Perm.flatMap_left _ fun range _ =>
      (worked_processRange ends p pool.table range).perm_heights hc hp
  have hwrittenNodup : written.Nodup := (hdivided.nodup_iff.mpr hnodup).of_append_left
  have hdedup : (heightsWritten moves).dedup.Perm written := by
    rw [List.perm_ext_iff_of_nodup (List.nodup_dedup _) hwrittenNodup]
    intro height
    rw [List.mem_dedup, h.mem_heightsWritten_iff hexited hf, hwritten, List.mem_flatMap]
  have htold := (h.perm_gapsTold hexited hf).flatMap_right BlockRange.heights
  exact (hdedup.append htold).trans hdivided

theorem exists_read_of_written (h : pool.History p moves) (hexited : pool.exited = true)
    (hnodup : (moves.flatMap (·.taken)).Nodup) {new : NewRows}
    (hmem : .written range new ∈ moves.flatMap (·.effects)) :
    ∃ (rows : List (OldRow pool.table)) (news : List (NewRow pool.table)),
      .read range (.ok ⟨pool.table, rows⟩) ∈ moves.flatMap (·.effects) ∧
      new = ⟨pool.table, news⟩ ∧ List.Forall₂ OldRow.Becomes rows news := by
  obtain ⟨ends, hf⟩ := h.exists_follows hnodup pool.table
  have hperm := h.perm_effects hf
  rw [ahead_of_exited hexited, List.append_nil] at hperm
  rw [hperm.mem_iff, List.mem_flatMap] at hmem
  obtain ⟨range', htaken, hmem⟩ := hmem
  obtain ⟨rfl, hwritten⟩ := mem_rangeEffects_written.mp hmem
  have hworked := worked_processRange ends p pool.table range
  generalize processRange ends p pool.table range = o at hwritten hworked
  cases hworked with
  | written hread hrows hup hwrite =>
    obtain ⟨rows, news, w, rfl, rfl, -, hall⟩ := Table.upgrade_eq_ok.mp hup
    cases hwritten
    refine ⟨rows, news, ?_, rfl, hall⟩
    rw [hperm.mem_iff]
    exact List.mem_flatMap.mpr ⟨range, htaken, mem_rangeEffects_read.mpr ⟨rfl, hread.symm⟩⟩
  | _ => cases hwritten

end Pool.History

/-! ### The count of a report -/

/-- The lengths of the ranges of gaps add up to the number of their heights, as long as these are
no more than numbers of 64 bits can count. -/
theorem total_len_eq {gaps : List Gap}
    (h : (heightsIn (gaps.map (·.range))).length < 0x1_0000_0000_0000_0000) :
    total (·.range.len) gaps = (heightsIn (gaps.map (·.range))).length := by
  induction gaps with
  | nil => rfl
  | cons gap gaps ih =>
    rw [List.map_cons, heightsIn_cons, List.length_append] at h ⊢
    have hlen : gap.range.heights.length = gap.range.stop - gap.range.start + 1 :=
      List.length_range'
    have hcount : gap.range.len = gap.range.heights.length := by
      rw [BlockRange.len, hlen]
      omega
    rw [total_cons, ih (by omega), hcount]

theorem Table.segmented_of_promise (ht : t = .headers ∨ t = .state ∨ t = .accounts) :
    t.heightSegmented = true ∧ t.continuity ≠ .none := by
  rcases ht with rfl | rfl | rfl <;> exact ⟨rfl, nofun⟩

namespace MigrationRun

variable {s : RunSetting} {e : Engine} {files : FileTree} {tables : List Table}
  {events : List RunEvent} {r : MigrationRun} {reports : List TableReport} {report : TableReport}
  {j : Nat}

/-- **Conservation of heights.** Let a run come to its end without an order from outside, whatever
its reads and writes answered and in whatever order its events happened, and let its ranges not
overlap. In a required table that promises heights, the rows written of a range are the new forms of
the rows read of it, and each height of the ranges either has rows that were written or lies in one
gap of the report: the heights written and the count of the report together are the heights of the
ranges, and no height is in two gaps. The count fits into 64 bits. -/
theorem gapHeights_eq (he : e.Reachable) (hstops : e.closing.stops = false)
    (hrun : (begin s e files tables).run? events = some r) (hover : r.isOver = true)
    (horders : ∀ event ∈ events, event.isOrder = false) (hresult : r.result = .ok reports)
    (hdisj : s.ranges.Pairwise fun range range' => range.heights.Disjoint range'.heights)
    (hfew : (heightsIn s.ranges).length < 0x1_0000_0000_0000_0000)
    (hj : reports[j]? = some report)
    (ht : report.table = .headers ∨ report.table = .state ∨ report.table = .accounts)
    (hp : e.policy.requires report.table = true) :
    let moves := jobMoves e.pools.length j events
    let gaps := (report.readGaps ++ report.writeGaps).map (·.range)
    (∀ range new, .written range new ∈ moves.flatMap (·.effects) →
      ∃ (rows : List (OldRow report.table)) (news : List (NewRow report.table)),
        .read range (.ok ⟨report.table, rows⟩) ∈ moves.flatMap (·.effects) ∧
        new = ⟨report.table, news⟩ ∧ List.Forall₂ OldRow.Becomes rows news) ∧
    ((heightsWritten moves).dedup ++ heightsIn gaps).Perm (heightsIn s.ranges) ∧
    (heightsWritten moves).dedup.length + report.gapHeights = (heightsIn s.ranges).length ∧
    report.gapHeights < 0x1_0000_0000_0000_0000 ∧ (heightsIn gaps).Nodup := by
  obtain ⟨hfailure, rfl⟩ := result_eq_ok.mp hresult
  obtain ⟨job, hjob, rfl⟩ := Option.map_eq_some_iff.mp (List.getElem?_map ▸ hj)
  have hkept := kept_of_run hrun
  have hcomplete := ((isOver_iff hfailure).mp hover).2 job (List.mem_of_getElem? hjob)
  have hnote := hkept.jobs j job hjob
  obtain ⟨pool, hpool, htable, -, hhistory, hdone⟩ := hnote.history
  have hexited := hhistory.exited_of_done (hdone hcomplete)
  have hall := hhistory.allReceived ((hnote.ended pool hpool).2 hcomplete)
  obtain ⟨hsegmented, hc⟩ := Table.segmented_of_promise ht
  -- All ranges of the setting were taken.
  have htaken : (jobMoves e.pools.length j events).flatMap (·.taken) = s.ranges := by
    have hu := Unstopped.of_run he hstops hrun horders
    rw [(hu.planned he hkept hjob hcomplete).1, Table.planned_eq]
    exact if_pos hsegmented
  have hranges : (heightsIn s.ranges).Nodup := pairwise_disjoint_iff.mp hdisj
  intro moves gaps
  have hgaps : gaps = (moves.flatMap (·.told.filterMap (·.gap? .read)) ++
      moves.flatMap (·.told.filterMap (·.gap? .write))).map (·.range) := by
    rw [← hall.gaps, ← hall.gaps, ← hnote.readGaps, ← hnote.writeGaps]
    rfl
  have hperm : ((heightsWritten moves).dedup ++ heightsIn gaps).Perm (heightsIn s.ranges) := by
    have h := hhistory.perm_heights hexited (htaken ▸ hranges) (htable ▸ hc) (htable ▸ hp)
    rw [htaken] at h
    rw [hgaps]
    exact h
  have hlength := hperm.length_eq
  rw [List.length_append] at hlength
  have hcount : job.report.gapHeights = (heightsIn gaps).length :=
    total_len_eq (show (heightsIn gaps).length < _ by omega)
  refine ⟨fun range new hmem => ?_, hperm, by omega, by omega,
    (hperm.nodup_iff.mpr hranges).of_append_right⟩
  have hrows := hhistory.exists_read_of_written hexited
    (htaken ▸ nodup_of_nodup_heightsIn hranges) hmem
  rw [htable] at hrows
  exact hrows

end MigrationRun

/-! ### A run with a gap of each kind -/

/-- Two ranges of three heights, and gap files in the working directory. -/
def sixHeights : RunSetting where
  ranges := [⟨3, 5, by decide, sixPages.stop_lt⟩, ⟨6, 8, by decide, by decide⟩]
  readGapsDir := ""
  writeGapsDir := ""
  seconds := 0

/-- A run of state nodes with one worker. -/
def stateWaiting : MigrationRun := .begin sixHeights (.fresh ⟨1, [.state], false⟩) ⟨[], []⟩ [.state]

/-- The run with the table started. -/
def stateStarted : MigrationRun where
  setting := sixHeights
  engine := ((Engine.fresh ⟨1, [.state], false⟩).migrate .state (some 1)).2
  files := ⟨[], [(["state_cids_0"], .file .empty)]⟩
  waiting := []
  jobs :=
    [⟨.state, 0, ⟨["state_cids_0"]⟩, ⟨["state_cids_0"]⟩, sixHeights.ranges, 0, true, [], [], 0,
      false⟩]

theorem components_sixHeights : ∀ kind, FileTree.components (sixHeights.gapsDir kind) = []
  | .read | .write => FileTree.components_empty

theorem gapPlace_stateWaiting (kind : GapKind) :
    gapPlace sixHeights ⟨[], []⟩ .state kind = ["state_cids_0"] := by
  rw [gapPlace_of_components_eq_nil (components_sixHeights kind)]
  cases kind <;> decide +kernel

theorem startTable_stateWaiting : stateWaiting.step .startTable = some stateStarted := by
  have hopen := run_openGapFiles sixHeights .state ⟨[], []⟩ components_sixHeights
    ⟨by decide +kernel, by rintro (_ | _) <;> decide +kernel⟩
    fun kind => by rw [gapPlace_stateWaiting]; rfl
  simp only [gapPlace_stateWaiting, ↓reduceIte] at hopen
  have hstarted := MigrationRun.startTable_of_open (r := stateWaiting) hopen []
  exact congrArg some hstarted

/-- The only worker writes the state nodes at the heights 3 and 5 of the first range; the second
range is read but cannot be written. -/
def halfWritten : List RunEvent :=
  let low : BlockRange := ⟨3, 5, by decide, sixPages.stop_lt⟩
  let high : BlockRange := ⟨6, 8, by decide, by decide⟩
  let between : BlockRange := ⟨4, 4, by decide, by decide⟩
  let node : NewStateNode := ⟨"", none, none, 0, "", "", false⟩
  [.startTable, .supply 0 low, .engine (.pool 0 (.look 0)), .engine (.pool 0 (.take 0 low)),
    .supply 0 high, .endSupply 0,
    .engine (.pool 0 (.read 0 low (.ok ⟨.state, [stateNodeAt "3", stateNodeAt "5"]⟩))),
    .engine (.pool 0 (.write 0 low ⟨.state, [node, node]⟩ (.ok 2))),
    .engine (.pool 0 (.tell 0 (.gap .read ⟨between, .discontinuity⟩))),
    .receive 0 (.readGap ⟨between, .discontinuity⟩), .engine (.pool 0 (.look 0)),
    .engine (.pool 0 (.take 0 high)),
    .engine (.pool 0 (.read 0 high (.ok ⟨.state, [stateNodeAt "7"]⟩))),
    .engine (.pool 0 (.write 0 high ⟨.state, [node]⟩ (.error .cancelled))),
    .engine (.pool 0 (.tell 0 (.gap .write ⟨high, .writeFailed⟩))),
    .engine (.pool 0 (.tell 0 (.failure .cancelled))), .receive 0 (.failure .cancelled),
    .receive 0 (.writeGap ⟨high, .writeFailed⟩), .engine (.pool 0 (.look 0)),
    .engine (.pool 0 (.exit 0)), .engine (.pool 0 .finish), .complete 0]

theorem run_halfWritten :
    ∃ r report, stateWaiting.run? halfWritten = some r ∧ r.isOver = true ∧
      r.result = .ok [report] ∧ report.table = .state ∧ report.gapHeights = 4 := by
  have hstarted : stateWaiting.run? halfWritten = stateStarted.run? halfWritten.tail := by
    rw [halfWritten, MigrationRun.run?, startTable_stateWaiting, Option.bind_some, List.tail_cons]
  have hend : ((stateStarted.run? halfWritten.tail).map fun r => (r.isOver,
      r.result.toOption.map (·.map fun report => (report.table, report.gapHeights)))) =
        some (true, some [(.state, 4)]) := by
    decide +kernel
  rw [hstarted]
  obtain ⟨r, hr, hover⟩ := Option.map_eq_some_iff.mp hend
  rw [Prod.mk.injEq, Option.map_eq_some_iff] at hover
  obtain ⟨hover, reports, hreports, hlist⟩ := hover
  rw [toOption_eq_some] at hreports
  obtain ⟨report, rest, rfl, hreport, hrest⟩ := List.map_eq_cons_iff.mp hlist
  rw [Prod.mk.injEq] at hreport
  rw [List.map_eq_nil_iff.mp hrest] at hreports
  exact ⟨r, report, hr, hover, hreports, hreport⟩

/-- Of six heights two are written and four lie in gaps, one on the read side and three on the write
side. -/
theorem halfWritten_divided :
    ∃ r report, stateWaiting.run? halfWritten = some r ∧ r.result = .ok [report] ∧
      (heightsWritten (jobMoves 0 0 halfWritten)).dedup.length + report.gapHeights = 6 ∧
      report.gapHeights = 4 ∧
      (heightsIn ((report.readGaps ++ report.writeGaps).map (·.range))).Nodup := by
  obtain ⟨r, report, hrun, hover, hresult, htable, hfour⟩ := run_halfWritten
  obtain ⟨-, -, hcount, -, hnodup⟩ := MigrationRun.gapHeights_eq (j := 0) ⟨_, [], rfl⟩ rfl hrun
    hover (by decide) hresult (List.Pairwise.imp BlockRange.disjoint_of_stop_lt (by decide))
    (by decide) rfl (Or.inr (Or.inl htable)) (by rw [htable]; rfl)
  exact ⟨r, report, hrun, hresult, hcount, hfour, hnodup⟩

end ChainMigration
