import ChainMigration.Proofs.Except
import ChainMigration.Proofs.NextEvent
import ChainMigration.Run.Transfer

/-! # Histories of transfer runs

`TransferRun.Step` says once what every event of a transfer run needs and does. The report of a run
tells of the failed segments that were received from its transfer (`TransferRun.Kept`). Once the run
is complete, and if no one told its copier to stop, these are the segments whose copy was answered
with an error (`TransferRun.failed_of_complete`). -/

namespace ChainMigration

variable {ends : Endpoints} {name : String} {segments : List BlockRange} {i : Nat} {ev : Event}
  {r next : TransferRun} {event : TransferEvent} {events : List TransferEvent}

/-- Someone closes the engine of a run. -/
def TransferEvent.isOrder : TransferEvent → Bool
  | engine event => event.isOrder
  | _ => false

/-- The move of a transfer that an event of its run is. -/
def TransferEvent.moveOf (i : Nat) : TransferEvent → List CopyMove
  | engine event => event.copyMoveOf i
  | receiveFailed pages => [.receiveFailed pages]
  | receiveFailure reason => [.receiveFailure reason]
  | complete => []

/-- The moves of the transfer among the events of its run. -/
def transferMoves (i : Nat) (events : List TransferEvent) : List CopyMove :=
  events.flatMap (·.moveOf i)

theorem transferMoves_concat (i : Nat) (events : List TransferEvent) (event : TransferEvent) :
    transferMoves i (events ++ [event]) = transferMoves i events ++ event.moveOf i := by
  rw [transferMoves, List.flatMap_append, List.flatMap_singleton]
  rfl

theorem Event.failedReceived_of_isFree (h : ev.isFree = true) (i : Nat) :
    (ev.copyMoveOf i).flatMap (·.failedReceived) = [] := by
  cases ev with
  | transfer j move =>
    rw [copyMoveOf]
    split
    · cases move with
      | receiveFailed | receiveFailure => cases h
      | _ => rfl
    · rfl
  | _ => rfl

theorem Engine.transfers_transfer (e : Engine) (name : String) (segments : List BlockRange) :
    (e.transfer name segments).2.transfers =
        e.transfers ++ [{ table := name, queue := segments }] ∧
      (e.transfer name segments).2.closing = e.closing := by
  unfold transfer after
  rw [List.foldl_cons, List.foldl_cons, List.foldl_nil, step, Option.getD_some, step]
  split <;> exact ⟨rfl, rfl⟩

namespace TransferRun

/-- The run after events; none if one of them cannot happen. -/
def run? (r : TransferRun) : List TransferEvent → Option TransferRun
  | [] => some r
  | event :: events => (r.step event).bind (·.run? events)

/-! ### One event -/

/-- What each event of a transfer run needs and what it does. -/
inductive Step (r : TransferRun) : TransferEvent → TransferRun → Prop
  | engine {ev : Event} {after : Engine} (hfree : ev.isFree = true)
    (hstep : r.engine.step ev = some after) : Step r (.engine ev) { r with engine := after }
  | receiveFailed {pages : BlockRange} {after : Engine}
    (hstep : r.engine.step (.transfer r.index (.receiveFailed pages)) = some after) :
    Step r (.receiveFailed pages) { r with
      engine := after
      files := r.gapFile.append ⟨pages, .writeFailed⟩ r.files
      report := { r.report with failed := r.report.failed ++ [pages] } }
  | receiveFailure {reason : MigrationError} {after : Engine}
    (hstep : r.engine.step (.transfer r.index (.receiveFailure reason)) = some after) :
    Step r (.receiveFailure reason) { r with
      engine := after
      report := { r.report with errors := r.report.errors + 1 } }
  | complete (hcomplete : r.complete = false) (hmay : r.mayComplete = true) :
    Step r .complete { r with complete := true }

/-- **An event of a transfer run does nothing else.** -/
theorem Step.of_step (h : r.step event = some next) : r.Step event next := by
  cases event with
  | engine ev =>
    obtain ⟨hfree, hmap⟩ := Option.ite_none_right_eq_some.mp h
    obtain ⟨after, hstep, rfl⟩ := Option.map_eq_some_iff.mp hmap
    exact .engine hfree hstep
  | receiveFailed pages =>
    obtain ⟨moved, hmove, rfl⟩ := Option.map_eq_some_iff.mp h
    obtain ⟨after, hstep, rfl⟩ := Option.map_eq_some_iff.mp hmove
    exact .receiveFailed hstep
  | receiveFailure reason =>
    obtain ⟨moved, hmove, rfl⟩ := Option.map_eq_some_iff.mp h
    obtain ⟨after, hstep, rfl⟩ := Option.map_eq_some_iff.mp hmove
    exact .receiveFailure hstep
  | complete =>
    obtain ⟨hc, ⟨⟩⟩ := Option.ite_none_right_eq_some.mp h
    rw [Bool.and_eq_true, Bool.not_eq_true'] at hc
    exact .complete hc.1 hc.2

/-! ### Runs -/

/-- **The transfer of a run** has made the moves among its events, and the report tells of the
failed segments that were received. -/
structure Kept (name : String) (segments : List BlockRange) (i : Nat) (events : List TransferEvent)
    (r : TransferRun) : Prop where
  index : r.index = i
  failed : r.report.failed = (transferMoves i events).flatMap (·.failedReceived)
  transfer : ∃ c, r.engine.transfers[i]? = some c ∧ c.table = name ∧
    c.History (transferMoves i events) ∧
    (transferMoves i events).flatMap (·.started) ++ c.queue = segments ∧
    (r.complete = true → c.done = true ∧ c.drained = true)

/-- No one told the copier to stop, so it exits only when no segments are left. -/
structure Unstopped (i : Nat) (r : TransferRun) : Prop where
  stops : r.engine.closing.stops = false
  queue : ∀ c, r.engine.transfers[i]? = some c → c.copier = .exited → c.queue = []

namespace Kept

/-- An event that goes on in the engine and of which the report takes note. -/
theorem engine (hr : r.Kept name segments i events) (h : r.engine.step ev = some next.engine)
    (hmove : event.moveOf i = ev.copyMoveOf i) (hindex : next.index = r.index)
    (hcomplete : next.complete = r.complete)
    (hfailed : next.report.failed =
      r.report.failed ++ (event.moveOf i).flatMap (·.failedReceived)) :
    next.Kept name segments i (events ++ [event]) := by
  obtain ⟨c, hc, htable, hhistory, hstarted, hend⟩ := hr.transfer
  refine ⟨hindex.trans hr.index, ?_, ?_⟩
  · rw [hfailed, hr.failed, transferMoves_concat, List.flatMap_append]
  · rw [transferMoves_concat, hmove, hcomplete]
    obtain ⟨after, hafter, htable', hhistory', hqueue, hlasts, -⟩ :=
      Engine.transfer_goesOn h hc hhistory
    refine ⟨after, hafter, htable'.trans htable, hhistory', ?_, fun hcomp => ?_⟩
    · rw [List.flatMap_append, List.append_assoc, ← hqueue]
      exact hstarted
    · obtain ⟨hdone, hdrained⟩ := hend hcomp
      exact hlasts hdone hdrained

theorem step (hr : r.Kept name segments i events) (h : r.step event = some next) :
    next.Kept name segments i (events ++ [event]) := by
  cases Step.of_step h with
  | engine hfree hstep =>
    refine hr.engine hstep rfl rfl rfl ?_
    rw [TransferEvent.moveOf, Event.failedReceived_of_isFree hfree, List.append_nil]
  | receiveFailed hstep =>
    rw [hr.index] at hstep
    exact hr.engine hstep (if_pos rfl).symm rfl rfl rfl
  | receiveFailure hstep =>
    rw [hr.index] at hstep
    exact hr.engine hstep (if_pos rfl).symm rfl rfl (List.append_nil _).symm
  | complete hcomplete hmay =>
    obtain ⟨c, hc, htable, hhistory, hstarted, -⟩ := hr.transfer
    rw [mayComplete, hr.index, hc, Option.any_some, Bool.and_eq_true] at hmay
    have hmoves : transferMoves i (events ++ [.complete]) = transferMoves i events := by
      rw [transferMoves_concat]
      exact List.append_nil _
    rw [← hmoves] at hhistory hstarted
    exact ⟨hr.index, hmoves ▸ hr.failed, c, hc, htable, hhistory, hstarted, fun _ => hmay⟩

end Kept

theorem Unstopped.of_engine (hu : r.Unstopped i) (h : r.engine.step ev = some next.engine)
    (hev : ev.isOrder = false) : next.Unstopped i := by
  refine ⟨Engine.stops_of_not_isOrder h hev hu.stops, fun c hc hexited => ?_⟩
  rcases Engine.transfer_of_step h i with
    ⟨-, heq⟩ | ⟨-, -, name, segments, -, hi'⟩ | ⟨move, c', after, -, hi, hi', hmove⟩
  · exact hu.queue c (heq ▸ hc) hexited
  · rw [hi'] at hc
    cases hc
    cases hexited
  · rw [hi'] at hc
    cases hc
    exact hmove.queue_of_exited hu.stops (hu.queue c' hi) hexited

theorem Unstopped.step (hu : r.Unstopped i) (h : r.step event = some next)
    (horder : event.isOrder = false) : next.Unstopped i := by
  cases Step.of_step h with
  | engine _ hstep => exact hu.of_engine hstep horder
  | receiveFailed hstep => exact hu.of_engine hstep rfl
  | receiveFailure hstep => exact hu.of_engine hstep rfl
  | complete => exact ⟨hu.stops, hu.queue⟩

/-- **A complete transfer run reports the segments whose copy was answered with an error**, in
order, if no one told its copier to stop. -/
theorem failed_of_complete (hr : r.Kept name segments i events) (hu : r.Unstopped i)
    (hcomplete : r.complete = true)
    (hf : ∀ move ∈ transferMoves i events, move.Follows ends name) :
    r.report.failed = segments.filter (ends.copyFails name) := by
  obtain ⟨c, hc, rfl, hhistory, hstarted, hend⟩ := hr.transfer
  obtain ⟨hdone, hdrained⟩ := hend hcomplete
  have hexited := hhistory.exited_of_done hdone
  have hfailed := hhistory.failed_of_follows hf
  rw [hu.queue c hc hexited, List.append_nil] at hstarted
  rw [hexited, hstarted, hhistory.failedTold, (PageCopy.drained_iff.mp hdrained).1,
    List.append_nil] at hfailed
  rw [hr.failed, ← hfailed]
  exact (List.append_nil _).symm

theorem kept_of_begin {c : TransferConfig} {lastPage : String → Except MigrationError UInt64}
    {e : Engine} {gapFile : GapFile} {files : FileTree}
    (h : begin c lastPage e gapFile files = .ok r) :
    ∃ segments, c.segments lastPage = .ok segments ∧
      r.Kept c.tableName segments e.transfers.length [] ∧
      (e.closing.stops = false → r.Unstopped e.transfers.length) := by
  obtain ⟨⟨index, count, engine⟩, hstart, h⟩ := bind_eq_ok.mp h
  obtain ⟨segments, hsegments, hstart⟩ := bind_eq_ok.mp hstart
  cases hstart
  cases h
  obtain ⟨htransfers, hclosing⟩ := e.transfers_transfer c.tableName segments
  have hlast : (e.transfer c.tableName segments).2.transfers[e.transfers.length]? =
      some { table := c.tableName, queue := segments } := by
    rw [htransfers]
    exact List.getElem?_concat_length
  refine ⟨segments, hsegments,
    ⟨rfl, rfl, _, hlast, rfl, .fresh c.tableName segments, rfl, nofun⟩, fun hstops => ⟨?_, ?_⟩⟩
  · exact (congrArg Closing.stops hclosing).trans hstops
  · intro copy hcopy hexited
    cases hlast.symm.trans hcopy
    cases hexited

theorem Kept.run {earlier : List TransferEvent} (hr : r.Kept name segments i earlier)
    (hrun : r.run? events = some next) : next.Kept name segments i (earlier ++ events) := by
  induction events generalizing r earlier with
  | nil =>
    cases hrun
    rw [List.append_nil]
    exact hr
  | cons event events ih =>
    obtain ⟨between, hstep, hrest⟩ := Option.bind_eq_some_iff.mp hrun
    have hnext := ih (hr.step hstep) hrest
    rwa [List.append_assoc] at hnext

theorem Unstopped.run (hu : r.Unstopped i) (hrun : r.run? events = some next)
    (horders : ∀ event ∈ events, event.isOrder = false) : next.Unstopped i := by
  induction events generalizing r with
  | nil =>
    cases hrun
    exact hu
  | cons event events ih =>
    obtain ⟨between, hstep, hrest⟩ := Option.bind_eq_some_iff.mp hrun
    rw [List.forall_mem_cons] at horders
    exact ih (hu.step hstep horders.1) hrest horders.2

end TransferRun

end ChainMigration
